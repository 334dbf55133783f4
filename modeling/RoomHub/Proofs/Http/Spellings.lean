import RoomHub.Proofs.Http.Verdict
import RoomHub.Proofs.Id.Layouts
import RoomHub.Proofs.Json.Records
import RoomHub.Proofs.Json.RoundTrip
import RoomHub.Proofs.Venue.Admission

/-!
# One room, many spellings

The path of a request may name a room in any layout and letter case. What the text spells
is looked at once, when the identifier is read; everything after goes by the identifier.

> `RoomId.parse_eq_ok_iff`: the texts that name a room are those that spell its digits;
> `answer_congr`: two spellings of one room get the same answer, whoever asks;
> `roomText?_of_path`: an answer names the room by the identifier's own text;
> `one_identity_per_room`: all of it, for every text, token, request and course of events.
-/

namespace RoomHub

open Program (done)

/-! ## Reading a room's identifier -/

/-- A room is named by what is read as its identifier, and by nothing else. -/
theorem RoomId.parse_eq_ok_iff {s : String} {r : RoomId} :
    RoomId.parse s = .ok r ↔ Uuid.parse? s = some r.uuid := by
  obtain ⟨u⟩ := r
  unfold RoomId.parse Id.parse?
  cases Uuid.parse? s <;> simp

/-- A text names a room exactly if it spells an identifier. -/
theorem RoomId.exists_parse_iff {s : String} :
    (∃ r, RoomId.parse s = .ok r) ↔ ∃ ds, Uuid.Spells s ds := by
  simp only [RoomId.parse_eq_ok_iff]
  constructor
  · rintro ⟨r, h⟩
    obtain ⟨ds, hspells, -⟩ := Uuid.parse?_eq_some_iff.mp h
    exact ⟨ds, hspells⟩
  · rintro ⟨ds, h⟩
    obtain ⟨u, hu, -⟩ := h.exists_parse?
    exact ⟨⟨u⟩, hu⟩

/-- Two texts name one room exactly if their digits agree up to letter case. -/
theorem RoomId.parse_eq_iff {s s' : String} {ds ds' : List Char} (h : Uuid.Spells s ds)
    (h' : Uuid.Spells s' ds') :
    RoomId.parse s = RoomId.parse s' ↔ ds.map Char.toLower = ds'.map Char.toLower := by
  obtain ⟨u, hu, -⟩ := h.exists_parse?
  obtain ⟨u', hu', -⟩ := h'.exists_parse?
  have hr : RoomId.parse s = .ok ⟨u⟩ := RoomId.parse_eq_ok_iff.mpr hu
  have hr' : RoomId.parse s' = .ok ⟨u'⟩ := RoomId.parse_eq_ok_iff.mpr hu'
  rw [← h.parse?_eq_iff h', hr, hr', hu, hu']
  simp

namespace Http

/-- The path of a request leads to a resource, with a text in the place of the room. -/
def Endpoint.Names (e : Endpoint) (req : Request) (room : String) : Prop :=
  ∃ segment, Route.ofPath? (pathOf req.target) = some (e.route segment) ∧
    parameter? segment = some room

/-- The room that a response names in the field `room_id` of its body. -/
def Response.roomText? (resp : Response) : Option String :=
  match (Json.parse? resp.body).bind (·.fields? ["room_id"]) with
  | some [some room] => room.asString?
  | _ => none

section Spellings

variable {verify : Verifier} {site : Site} {upgradable : Bool} {token : Option String}
  {req : Request} {target s s' : String} {r : RoomId} {e : Endpoint} {turns : List Turn}
  {resp : Response}

/-! ## The same answers -/

section Congr

variable (hs : RoomId.parse s = .ok r) (hs' : RoomId.parse s' = .ok r)

include hs hs'

/-- The checks go by the identifier alone. -/
theorem authorizeRequest_congr (verify : Verifier) (token : Option String) :
    authorizeRequest verify token s = authorizeRequest verify token s' := by
  unfold authorizeRequest
  rw [hs, hs']

/-- Two spellings of one room get the same reply on presence. -/
theorem presence_congr (verify : Verifier) (req : Request) :
    presence verify req s = presence verify req s' := by
  unfold presence
  rw [authorizeRequest_congr hs hs']

/-- Two spellings of one room get the same reply on its call. -/
theorem callParticipants_congr (verify : Verifier) (req : Request) :
    callParticipants verify req s = callParticipants verify req s' := by
  unfold callParticipants
  rw [authorizeRequest_congr hs hs']

/-- Two requests that differ in how they write the room, and for a socket show one token,
get the same answer. -/
theorem answer_congr (hnames : e.Names req s) (hnames' : e.Names { req with target } s')
    (hquery : e = .socket → queryOf target = queryOf req.target) :
    answer site upgradable { req with target } = answer site upgradable req := by
  obtain ⟨segment, hroute, hsegment⟩ := hnames
  obtain ⟨segment', hroute', hsegment'⟩ := hnames'
  have hdoor : (e.route segment').answer site.verify upgradable { req with target }
      = (e.route segment).answer site.verify upgradable req := by
    cases e with
    | presence =>
      show withRoom segment' _ = withRoom segment _
      rw [withRoom_eq hsegment, withRoom_eq hsegment']
      exact presence_congr hs' hs site.verify req
    | call =>
      show withRoom segment' _ = withRoom segment _
      rw [withRoom_eq hsegment, withRoom_eq hsegment']
      exact callParticipants_congr hs' hs site.verify req
    | socket =>
      -- neither the method nor a header is part of the target
      have hfault : handshakeFault? upgradable { req with target }
          = handshakeFault? upgradable req := rfl
      show socket _ _ _ segment' = socket _ _ _ segment
      unfold socket
      dsimp only
      rw [hfault, hquery rfl, withRoom_eq hsegment, withRoom_eq hsegment']
      simp only [authorizeRequest_congr hs' hs]
  unfold answer answerPlain
  rw [hroute, hroute']
  dsimp only
  rw [hdoor]
  rfl

end Congr

/-! ## The room in an answer -/

/-- Whoever is refused gets no success. -/
theorem status_ofAccess (e : AccessError) : (Refusal.ofAccess e).status ≠ 200 := by
  cases e with
  | unauthorized reason => cases reason <;> simp [Refusal.ofAccess]
  | roomNotFound | forbidden | store => simp [Refusal.ofAccess]

/-- A refusal by the store is no success. -/
theorem status_ofStore (e : StoreError) : (Refusal.ofStore e).status ≠ 200 := by
  cases e <;> simp [Refusal.ofStore]

/-- Whoever is not authorized gets no success. -/
theorem status_of_refused {refusal : Refusal}
    (hp : (authorizeRequest verify token s).Path turns (done (.error refusal))) :
    refusal.status ≠ 200 := by
  unfold authorizeRequest at hp
  split at hp
  next e _ =>
    cases hp.done_inv.2
    exact status_ofAccess e
  next =>
    split at hp
    next =>
      cases hp.done_inv.2
      decide
    next =>
      obtain ⟨first, second, granted, rfl, -, hsecond⟩ := hp.bind_inv
      cases granted with
      | ok => cases hsecond.done_inv.2
      | error e =>
        cases hsecond.done_inv.2
        exact status_ofAccess e

/-- A record with a text as its `room_id` is a body that names this room. -/
theorem roomText?_json {status : Nat} {room : String} {ms : List (String × Json)}
    (hnames : ((("room_id", Json.text room) :: ms).map (·.1)).Nodup) :
    (Response.json status (.record (("room_id", .text room) :: ms))).roomText? = some room := by
  have hfields : (Json.record (("room_id", .text room) :: ms)).fields? ["room_id"]
      = some [some (.text room)] := Json.fields?_record hnames _
  unfold Response.roomText? Response.json
  rw [Json.parse?_render, Option.bind_some, hfields]
  rfl

/-- A reply on presence names its room in the canonical form. -/
theorem roomText?_ofPresence (p : Presence) :
    (Response.json 200 (Wire.PresencePayload.ofPresence p).toJson).roomText?
      = some p.room.toText := by
  have hnames : ["room_id", "members", "participants", "call_users"].Nodup := by decide
  refine roomText?_json ?_
  exact hnames

/-- A reply on a call names its room in the canonical form. -/
theorem roomText?_ofParticipants (r : RoomId) (people : List Participant) :
    (Response.json 200 (Wire.CallPayload.ofParticipants r people).toJson).roomText?
      = some r.toText := by
  have hnames : ["room_id", "call_users"].Nodup := by decide
  refine roomText?_json ?_
  exact hnames

section Success

variable (hs : RoomId.parse s = .ok r) (hok : resp.status = 200)

include hs hok

/-- Behind a success stands what follows the checks, for the room that was asked for. -/
theorem path_of_granted {k : RoomId → Program Reply}
    (hp : (authorizeRequest verify token s >>= fun
      | .error refusal => pure (.response refusal.response)
      | .ok (_, r) => k r).Path turns (done (.response resp))) :
    ∃ rest, (k r).Path rest (done (.response resp)) := by
  obtain ⟨first, second, granted, rfl, hfirst, hsecond⟩ := hp.bind_inv
  rcases granted with refusal | ⟨who, r'⟩
  · cases hsecond.done_inv.2
    exact absurd hok (status_of_refused hfirst)
  · obtain rfl : r = r' := Except.ok.inj (hs.symm.trans hfirst.authorizeRequest_done.2.1)
    exact ⟨second, hsecond⟩

/-- Whatever spelling was asked for, the reply on presence names the room canonically. -/
theorem roomText?_presence
    (hp : (presence verify req s).Path turns (done (.response resp))) :
    resp.roomText? = some r.toText := by
  obtain ⟨rest, hrest⟩ := path_of_granted hs hok hp
  obtain ⟨asked, last, listed, rfl, hasked, hlast⟩ := hrest.bind_inv
  cases listed with
  | error e =>
    cases hlast.done_inv.2
    exact absurd hok (status_ofStore e)
  | ok people =>
    cases hlast.done_inv.2
    rw [roomText?_ofPresence, hasked.ofRoom_done.1]

/-- So does the reply on the call of a room. -/
theorem roomText?_callParticipants
    (hp : (callParticipants verify req s).Path turns (done (.response resp))) :
    resp.roomText? = some r.toText := by
  obtain ⟨rest, hrest⟩ := path_of_granted hs hok hp
  obtain ⟨asked, last, people, rfl, -, hlast⟩ := hrest.bind_inv
  cases hlast.done_inv.2
  exact roomText?_ofParticipants r people

/-- When a list of people is given, it names the room by the identifier's own text. -/
theorem roomText?_of_path (hlist : e ≠ .socket) (hget : req.method = "GET")
    (hnames : e.Names req s)
    (hp : (answer site upgradable req).Path turns (done (.response resp))) :
    resp.roomText? = some r.toText := by
  obtain ⟨segment, hroute, hsegment⟩ := hnames
  have hnoOptions : req.method ≠ "OPTIONS" := by
    rw [hget]
    decide
  unfold answer answerPlain at hp
  rw [if_neg hnoOptions, hroute] at hp
  dsimp only at hp
  rw [if_pos hget] at hp
  obtain ⟨first, second, reply, rfl, hfirst, hsecond⟩ := hp.bind_inv
  cases reply with
  | upgrade => cases hsecond.done_inv.2
  | response plain =>
    -- the headers for other origins are added to the response of the resource
    cases hsecond.done_inv.2
    show plain.roomText? = _
    cases e with
    | socket => exact absurd rfl hlist
    | presence =>
      change (withRoom segment _).Path first _ at hfirst
      rw [withRoom_eq hsegment] at hfirst
      exact roomText?_presence hs hok hfirst
    | call =>
      change (withRoom segment _).Path first _ at hfirst
      rw [withRoom_eq hsegment] at hfirst
      exact roomText?_callParticipants hs hok hfirst

end Success

end Spellings

/-! ## Every text, token, request and course of events -/

/-- The text of a room names it again. A text names a room exactly if it spells 32 digits in one
of the layouts, and two texts name one room exactly if their digits agree up to letter case.
Two texts of one room are the same to everything behind: the checks of the caller and the
answers are the same programs, with the same answer whatever happens in the world before and
between their steps. A list of people that is given names the room by the hyphenated
lower-case digits, whatever text was asked for. -/
theorem one_identity_per_room :
    (∀ r : RoomId, RoomId.parse r.toText = .ok r) ∧
    (∀ s, (∃ r, RoomId.parse s = .ok r) ↔ ∃ ds, Uuid.Spells s ds) ∧
    (∀ s s' ds ds', Uuid.Spells s ds → Uuid.Spells s' ds' →
      (RoomId.parse s = RoomId.parse s' ↔ ds.map Char.toLower = ds'.map Char.toLower)) ∧
    ∀ (s s' : String) (r : RoomId), RoomId.parse s = .ok r → RoomId.parse s' = .ok r →
      (∀ ds, Uuid.Spells s ds →
        r.toText = String.ofList (Uuid.hyphenate Uuid.groups (ds.map Char.toLower))) ∧
      (∀ verify token,
        authorizeRequest verify token s = authorizeRequest verify token s') ∧
      (∀ verify req, presence verify req s = presence verify req s' ∧
        callParticipants verify req s = callParticipants verify req s') ∧
      (∀ (site : Site) (upgradable : Bool) (e : Endpoint) (req : Request) (target : String),
        e.Names req s → e.Names { req with target } s' →
        (e = .socket → queryOf target = queryOf req.target) →
        answer site upgradable { req with target } = answer site upgradable req) ∧
      (∀ (site : Site) (upgradable : Bool) (e : Endpoint) (req : Request) (turns : List Turn)
          (resp : Response), e ≠ .socket → req.method = "GET" → e.Names req s →
        (answer site upgradable req).Path turns (done (.response resp)) → resp.status = 200 →
        resp.roomText? = some r.toText) := by
  refine ⟨RoomId.parse_toText, fun s => RoomId.exists_parse_iff, fun s s' ds ds' h h' => RoomId.parse_eq_iff h h',
    fun s s' r hs hs' => ⟨fun ds h => ?_, ?_, ?_, ?_, ?_⟩⟩
  · exact Uuid.toText_eq_of_spells h (RoomId.parse_eq_ok_iff.mp hs)
  · exact authorizeRequest_congr hs hs'
  · exact fun verify req =>
      ⟨presence_congr hs hs' verify req, callParticipants_congr hs hs' verify req⟩
  · exact fun site upgradable e req target hnames hnames' hquery =>
      answer_congr hs hs' hnames hnames' hquery
  · exact fun site upgradable e req turns resp hlist hget hnames hp hok =>
      roomText?_of_path hs hok hlist hget hnames hp

/-- A room whose only member holds the known token. -/
def clubWorld : World := .ofStore (Store.ofSeed [⟨⟨⟨0xABC⟩⟩, "club", [⟨⟨⟨5⟩⟩, "ann"⟩]⟩]) .epoch

/-- The room in braces and upper case. -/
def bracedClub : String := "\x7b00000000-0000-0000-0000-000000000ABC\x7d"

/-- The room as digits alone, in mixed case. -/
def bareClub : String := "00000000000000000000000000000aBc"

/-- A room asked for in braces and capitals is the one asked for plainly. -/
theorem one_identity_per_room_club :
    authorizeRequest oneToken.verify (some "t0") bracedClub
      = authorizeRequest oneToken.verify (some "t0") bareClub ∧
    answer oneToken true (Endpoint.call.request "t0" bareClub)
      = answer oneToken true (Endpoint.call.request "t0" bracedClub) ∧
    ∃ resp, ((answer oneToken true (Endpoint.call.request "t0" bracedClub)).run clubWorld).1
        = .response resp ∧ resp.status = 200 ∧
      resp.roomText? = some "00000000-0000-0000-0000-000000000abc" := by
  have hbraced : Endpoint.call.Asks true (Endpoint.call.request "t0" bracedClub) knownToken.text
      bracedClub := asks_request knownToken nofun
  have hbare : Endpoint.call.Asks true (Endpoint.call.request "t0" bareClub) knownToken.text
      bareClub := asks_request knownToken nofun
  obtain ⟨-, -, -, hsame⟩ := one_identity_per_room
  obtain ⟨-, hauthorize, -, hanswer, hroom⟩ := hsame bracedClub bareClub ⟨⟨0xABC⟩⟩ rfl rfl
  refine ⟨hauthorize _ _, hanswer _ _ .call (Endpoint.call.request "t0" bracedClub)
    (Endpoint.call.request "t0" bareClub).target hbraced.path hbare.path nofun, ?_⟩
  have hadmitted : verdict oneToken.verify clubWorld "t0" bracedClub
      = .ok (⟨⟨⟨5⟩⟩, "ann"⟩, ⟨⟨0xABC⟩⟩) := rfl
  have hrun := congrArg Prod.fst
    (run_answer hbraced : (answer oneToken true _).run clubWorld = _)
  unfold Endpoint.reply at hrun
  rw [show knownToken.text = "t0" from rfl, hadmitted] at hrun
  obtain ⟨turns, hturns⟩ := Program.exists_path_run
    (answer oneToken true (Endpoint.call.request "t0" bracedClub)) clubWorld
  rw [hrun] at hturns
  exact ⟨_, hrun, rfl, hroom _ _ .call _ _ _ nofun rfl hbraced.path hturns rfl⟩

end Http

end RoomHub
