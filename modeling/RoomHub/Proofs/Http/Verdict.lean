import RoomHub.Proofs.Http.Escapes
import RoomHub.Proofs.Programs
import RoomHub.Simulation

/-!
# One verdict at three doors

The socket of a room, the list of its people and the list of those in its call check a
caller alike: the token first, then the text that should name a room, then whether the store
has the room, then whether the caller is a member. `verdict` is the first check that fails,
or who was admitted to what, as a function of the token, the text and the world. `Asks` says
that a request puts a token and a text to one of the doors, `reply` what it gets there.

> `run_answer`: such a request gets the reply of its door and leaves the world as it was;
> `verdict_congr`: of the world, a verdict depends on the two answers of the store only;
> `verdicts_agree_and_leak_nothing`: so it is for every token, text, request and world.
-/

namespace RoomHub

/-! ## What the store is asked -/

namespace World

/-- What the store answers when asked whether a room exists. -/
def existence (w : World) (r : RoomId) : Except StoreError Bool :=
  w.ask .roomExists (.ok (w.store.roomExists r))

/-- What the store answers when asked whether a user is a member. -/
def membership (w : World) (r : RoomId) (u : UserId) : Except StoreError Bool :=
  w.ask .isMember (.ok (w.store.isMember r u))

/-- Two worlds answer both questions alike: with the same yes or no, or with a failure each,
whatever its reason. -/
structure AnswersAlike (w w' : World) (r : RoomId) (u : UserId) : Prop where
  existence : (w.existence r).toOption = (w'.existence r).toOption
  membership : (w.membership r u).toOption = (w'.membership r u).toOption

end World

namespace Http

/-! ## The verdict -/

/-- The first check: the token proves who is asking. -/
def checkToken (verify : Verifier) (token : String) : Except Refusal Participant :=
  match verify token with
  | .ok who => .ok who
  | .error .missing => .error ⟨401, "missing token"⟩
  | .error .blankName => .error ⟨401, "invalid token payload"⟩
  | .error (.invalid _) => .error ⟨401, "invalid token"⟩

/-- The second check: the text names a room. -/
def checkRoom (room : String) : Except Refusal RoomId :=
  match RoomId.parse room with
  | .ok r => .ok r
  | .error _ => .error ⟨400, "invalid room id"⟩

/-- The other two checks: the store says yes. -/
def checkLookup (found : Except StoreError Bool) (otherwise : Refusal) : Except Refusal Unit :=
  match found with
  | .ok true => .ok ()
  | .ok false => .error otherwise
  | .error _ => .error ⟨500, "failed to check membership"⟩

/-- The first check that fails, or who was admitted to which room. -/
def verdict (verify : Verifier) (w : World) (token room : String) :
    Except Refusal (Participant × RoomId) := do
  let who ← checkToken verify token
  let r ← checkRoom room
  checkLookup (w.existence r) ⟨404, "room not found"⟩
  checkLookup (w.membership r who.user) ⟨403, "forbidden"⟩
  return (who, r)

section Verdict

variable {verify : Verifier} {w w' : World} {token room : String} {who : Participant}
  {r : RoomId}

/-- Authorizing looks at the room first and then at the membership, and changes nothing. -/
theorem run_authorize :
    (Access.authorize who r).run w
      = (match w.existence r with
        | .error e => .error (.store e)
        | .ok false => .error (.roomNotFound r)
        | .ok true =>
          match w.membership r who.user with
          | .error e => .error (.store e)
          | .ok false => .error (.forbidden r who.user)
          | .ok true => .ok (), w) := by
  rw [Access.authorize_eq, Program.run_step]
  have hexists : w.perform (.roomExists r) = (w.existence r, w) := rfl
  have hmember : w.perform (.isMember r who.user) = (w.membership r who.user, w) := rfl
  rw [hexists]
  rcases w.existence r with e | _ | _
  · rfl
  · rfl
  · simp only [Program.run_step, hmember]
    rcases w.membership r who.user with e | _ | _ <;> rfl

/-- The checks of a request come to the verdict, and change nothing. -/
theorem run_authorizeRequest (hne : token ≠ "") :
    (authorizeRequest verify (some token) room).run w = (verdict verify w token room, w) := by
  have hfilter : (some token).filter (!·.isEmpty) = some token := by
    rw [Option.filter_some, if_pos]
    simpa using hne
  unfold authorizeRequest Access.authenticate verdict checkToken checkRoom
  rw [hfilter]
  dsimp only
  cases verify token with
  | error reason => cases reason <;> rfl
  | ok who =>
    cases RoomId.parse room with
    | error e => rfl
    | ok r =>
      refine (Program.run_bind _ _ w).trans ?_
      rw [run_authorize]
      simp only [bind, Except.bind]
      rcases w.existence r with e | _ | _
      · rfl
      · rfl
      · rcases w.membership r who.user with e | _ | _ <;> rfl

/-- A lookup that fails is refused in the same way whatever its reason. -/
theorem checkLookup_congr {found found' : Except StoreError Bool} (otherwise : Refusal)
    (hsame : found.toOption = found'.toOption) :
    checkLookup found otherwise = checkLookup found' otherwise := by
  rcases found with e | yes
  · rcases found' with e' | yes'
    · rfl
    · cases hsame
  · rcases found' with e' | yes'
    · cases hsame
    · cases hsame
      rfl

/-- Of the world, a verdict depends on the two answers of the store only. -/
theorem verdict_congr (hwho : verify token = .ok who) (hr : RoomId.parse room = .ok r)
    (halike : w.AnswersAlike w' r who.user) :
    verdict verify w token room = verdict verify w' token room := by
  unfold verdict checkToken checkRoom
  rw [hwho, hr]
  simp only [bind, Except.bind]
  rw [checkLookup_congr _ halike.existence, checkLookup_congr _ halike.membership]

/-- Without a token that proves something the world is not looked at. -/
theorem verdict_of_unproven (room : String) (hnobody : ∀ who, verify token ≠ .ok who) :
    ∃ refusal : Refusal, refusal.status = 401 ∧
      ∀ w, verdict verify w token room = .error refusal := by
  unfold verdict checkToken
  cases hreason : verify token with
  | ok who => exact absurd hreason (hnobody who)
  | error reason => cases reason <;> exact ⟨_, rfl, fun w => rfl⟩

/-- Nor is it when the text names no room. -/
theorem verdict_of_unnamed (hwho : verify token = .ok who)
    (hnowhere : ∀ r, RoomId.parse room ≠ .ok r) (w : World) :
    verdict verify w token room = .error ⟨400, "invalid room id"⟩ := by
  unfold verdict checkToken checkRoom
  rw [hwho]
  cases hparse : RoomId.parse room with
  | ok r => exact absurd hparse (hnowhere r)
  | error e => rfl

end Verdict

/-! ## The three doors -/

/-- A resource that is given to members of its room only. -/
inductive Endpoint where
  | socket
  | presence
  | call
  deriving DecidableEq

/-- A token of visible ASCII characters, without a space. -/
structure PlainToken where
  text : String
  nonempty : text ≠ ""
  visible : ∀ c ∈ text.toList, '!' ≤ c ∧ c ≤ '~'

namespace Endpoint

/-- The resource itself, with the room as it is written in the path. -/
def route : Endpoint → String → Route
  | socket => .socket
  | presence => .presence
  | call => .callParticipants

/-- A request shows a token in the way the resource wants it: a proper request for a socket
in its query, any other in its `Authorization` header. -/
def Shows (upgradable : Bool) (req : Request) (token : String) : Endpoint → Prop
  | socket => handshakeFault? upgradable req = none ∧
    queryField? (queryOf req.target) "token" = some (some token)
  | presence | call => req.header? "authorization" = some (Text.Utf8.bytes ("Bearer " ++ token))

/-- A request asks for the resource of a room, and shows a token. -/
structure Asks (e : Endpoint) (upgradable : Bool) (req : Request) (token room : String) :
    Prop where
  method : req.method = "GET"
  path : ∃ segment, Route.ofPath? (pathOf req.target) = some (e.route segment) ∧
    parameter? segment = some room
  shows : e.Shows upgradable req token

/-- What follows for someone who is admitted. -/
def grant (w : World) (who : Participant) (r : RoomId) : Endpoint → Reply
  | socket => .upgrade r who
  | presence =>
    match w.ask .listMembers (w.store.listMembers r) with
    | .error e => .response (Refusal.ofStore e).response
    | .ok members =>
      let people : Presence := ⟨r, members, w.hub.participants r, w.hub.callParticipants r⟩
      .response (.json 200 (Wire.PresencePayload.ofPresence people).toJson)
  | call =>
    .response (.json 200 (Wire.CallPayload.ofParticipants r (w.hub.callParticipants r)).toJson)

/-- What follows from a token and a text for a room: the verdict's refusal, or what the
resource gives. -/
def reply (e : Endpoint) (verify : Verifier) (w : World) (token room : String) : Reply :=
  match verdict verify w token room with
  | .error refusal => .response refusal.response
  | .ok (who, r) => e.grant w who r

/-- The path of the resource, in parts. -/
def parts (room : List Char) : Endpoint → List (List Char)
  | socket => [[], "ws".toList, "rooms".toList, room]
  | presence => [[], "api".toList, "rooms".toList, room, "presence".toList]
  | call => [[], "api".toList, "rooms".toList, room, "call-participants".toList]

/-- A request for the resource of a room, with every byte of the texts escaped. -/
def request (token room : String) (e : Endpoint) : Request :=
  let path := ['/'].intercalate (e.parts (escaped (Text.Utf8.bytes room)))
  match e with
  | socket =>
    let query := "token".toList ++ '=' :: escaped (Text.Utf8.bytes token)
    Simulation.socketRequest (String.ofList (path ++ '?' :: query))
  | presence | call =>
    ⟨"GET", String.ofList path, [("authorization", Text.Utf8.bytes ("Bearer " ++ token))]⟩

end Endpoint

/-- A reply with the headers for other origins. -/
def Reply.withHeaders (hs : List (String × String)) : Reply → Reply
  | .response r => .response (r.withHeaders hs)
  | .upgrade r who => .upgrade r who

/-! ## Requests at a door -/

section Requests

variable {site : Site} {w : World} {e : Endpoint} {upgradable : Bool} {req : Request}
  {room segment : String} {token : PlainToken}

/-- A plain token holds visible ASCII characters only. -/
theorem PlainToken.bounds (token : PlainToken) :
    ∀ c ∈ token.text.toList, 33 ≤ c.toNat ∧ c.toNat ≤ 126 := token.visible

theorem PlainToken.ascii (token : PlainToken) : ∀ c ∈ token.text.toList, c.toNat < 128 :=
  fun c hc => Nat.lt_succ_of_lt (Nat.lt_succ_of_le (token.bounds c hc).2)

/-- No visible character is blank: each range of blank ones ends before the first of them, or
begins behind the last. -/
theorem PlainToken.not_blank (token : PlainToken) :
    ∀ c ∈ token.text.toList, Text.isBlankChar c = false := by
  intro c hc
  obtain ⟨hlow, hhigh⟩ := token.bounds c hc
  have hapart : ∀ range ∈ Text.blankRanges, range.2 ≤ 32 ∨ 127 ≤ range.1 := by decide
  refine List.any_eq_false.mpr fun range hrange => ?_
  have hout := hapart range hrange
  rw [Bool.and_eq_true, decide_eq_true_eq, decide_eq_true_eq]
  omega

section Doors

variable (hshown : req.header? "authorization"
  = some (Text.Utf8.bytes ("Bearer " ++ token.text)))

include hshown

/-- What follows `Bearer` in the header is the token. -/
theorem bearerToken?_eq : bearerToken? req = some token.text := by
  have hvisible : ∀ c ∈ ("Bearer " ++ token.text).toList, ' ' ≤ c ∧ c ≤ '~' := by
    intro c hc
    rw [String.toList_append, List.mem_append] at hc
    rcases hc with hscheme | htoken
    · have hall : "Bearer ".toList.all (fun c => ' ' ≤ c ∧ c ≤ '~') = true := by decide
      exact of_decide_eq_true (List.all_eq_true.mp hall c hscheme)
    · obtain ⟨hlow, hhigh⟩ := token.bounds c htoken
      exact ⟨Nat.le_trans (by decide : 32 ≤ 33) hlow, hhigh⟩
  unfold bearerToken?
  rw [hshown]
  simp only [Option.bind_eq_bind, Option.bind_some, visibleText?_bytes hvisible,
    String.toList_append]
  rw [if_pos (List.isPrefixOf_iff_prefix.mpr (List.prefix_append _ _)), List.drop_left,
    String.ofList_toList, Text.trim_of_not_blank token.not_blank]
  rfl

/-- The presence endpoint replies by the verdict and leaves the world as it was. -/
theorem run_presence :
    (presence site.verify req room).run w
      = (Endpoint.presence.reply site.verify w token.text room, w) := by
  unfold presence Endpoint.reply
  refine (Program.run_bind _ _ w).trans ?_
  rw [bearerToken?_eq hshown, run_authorizeRequest token.nonempty]
  dsimp only
  cases verdict site.verify w token.text room with
  | error refusal => rfl
  | ok found =>
    obtain ⟨who, r⟩ := found
    have hlisted : w.perform (.listMembers r)
        = (w.ask .listMembers (w.store.listMembers r), w) := rfl
    refine (Program.run_bind _ _ w).trans ?_
    rw [Presence.ofRoom_eq, Program.run_step, hlisted]
    dsimp only [Endpoint.grant]
    cases w.ask .listMembers (w.store.listMembers r) <;> rfl

/-- So does the call endpoint. -/
theorem run_callParticipants :
    (callParticipants site.verify req room).run w
      = (Endpoint.call.reply site.verify w token.text room, w) := by
  unfold callParticipants Endpoint.reply
  refine (Program.run_bind _ _ w).trans ?_
  rw [bearerToken?_eq hshown, run_authorizeRequest token.nonempty]
  cases verdict site.verify w token.text room <;> rfl

end Doors

/-- Behind the escapes of a segment stands the text of the room. -/
theorem withRoom_eq (hsegment : parameter? segment = some room) (k : String → Program Reply) :
    withRoom segment k = k room := by
  unfold withRoom
  rw [hsegment]

/-- So does the socket endpoint, when the handshake is proper. -/
theorem run_socket (hproper : handshakeFault? upgradable req = none)
    (hsegment : parameter? segment = some room)
    (hshown : queryField? (queryOf req.target) "token" = some (some token.text)) :
    (socket site.verify upgradable req segment).run w
      = (Endpoint.socket.reply site.verify w token.text room, w) := by
  unfold socket Endpoint.reply
  rw [hproper, hshown]
  dsimp only
  rw [withRoom_eq hsegment]
  refine (Program.run_bind _ _ w).trans ?_
  rw [run_authorizeRequest token.nonempty]
  cases verdict site.verify w token.text room <;> rfl

/-- A request at a door gets the reply of that door, and leaves the world as it was. -/
theorem run_answer (hasks : e.Asks upgradable req token.text room) :
    (answer site upgradable req).run w
      = ((e.reply site.verify w token.text room).withHeaders
          (site.cors.headers (req.header? "origin")), w) := by
  obtain ⟨segment, hroute, hsegment⟩ := hasks.path
  have hdoor : ((e.route segment).answer site.verify upgradable req).run w
      = (e.reply site.verify w token.text room, w) := by
    have hshows := hasks.shows
    cases e with
    | socket => exact run_socket hshows.1 hsegment hshows.2
    | presence =>
      show (withRoom segment _).run w = _
      rw [withRoom_eq hsegment]
      exact run_presence hshows
    | call =>
      show (withRoom segment _).run w = _
      rw [withRoom_eq hsegment]
      exact run_callParticipants hshows
  have hnoOptions : req.method ≠ "OPTIONS" := by
    rw [hasks.method]
    decide
  unfold answer answerPlain
  rw [if_neg hnoOptions, hroute]
  dsimp only
  rw [if_pos hasks.method]
  refine (Program.run_bind _ _ w).trans ?_
  rw [hdoor]
  cases e.reply site.verify w token.text room <;> rfl

/-! ## There are such requests -/

/-- The parts of an endpoint's path are made of inert characters. -/
theorem isInert_of_mem_parts (e : Endpoint) (bs : List UInt8) :
    ∀ part ∈ e.parts (escaped bs), ∀ c ∈ part, isInert c = true := by
  have hescaped : ∀ c ∈ escaped bs, isInert c = true := fun c hc => isInert_of_mem_escaped hc
  cases e <;> simpa [Endpoint.parts, isInert] using hescaped

/-- The path leads to the resource; a room at its end must not be empty. -/
theorem ofPath?_parts (hroom : e = .socket → room ≠ "") :
    Route.ofPath? (['/'].intercalate (e.parts (escaped (Text.Utf8.bytes room))))
      = some (e.route (String.ofList (escaped (Text.Utf8.bytes room)))) := by
  have hne : e.parts (escaped (Text.Utf8.bytes room)) ≠ [] := by
    cases e <;> exact List.cons_ne_nil _ _
  unfold Route.ofPath?
  rw [segments_join (isInert_of_mem_parts e _) hne]
  cases e with
  | socket =>
    have hsegment : (String.ofList (escaped (Text.Utf8.bytes room))).isEmpty = false := by
      cases hempty : (String.ofList (escaped (Text.Utf8.bytes room))).isEmpty with
      | false => rfl
      | true =>
        -- an empty segment would stand for the empty room
        have hroom' := parameter?_escaped room
        rw [String.isEmpty_iff.mp hempty] at hroom'
        exact absurd (Option.some.inj hroom').symm (hroom rfl)
    show (if (String.ofList (escaped (Text.Utf8.bytes room))).isEmpty = true then none
      else some (Route.socket _)) = _
    rw [hsegment]
    rfl
  | presence => rfl
  | call => rfl

/-- The request that is written for an endpoint asks it for the room, under the token. -/
theorem asks_request (token : PlainToken) (hroom : e = .socket → room ≠ "") :
    e.Asks true (e.request token.text room) token.text room := by
  have hpath := ne_of_mem_join (isInert_of_mem_parts e (Text.Utf8.bytes room))
  have hroute := ofPath?_parts hroom
  have hroom' := parameter?_escaped room
  cases e with
  | socket =>
    have hname : ∀ c ∈ "token".toList, isInert c = true :=
      List.all_eq_true.mp (by decide)
    have hquery : '#' ∉ "token".toList ++ '=' :: escaped (Text.Utf8.bytes token.text) :=
      not_mem_field hname rfl (by decide)
    refine ⟨rfl, ⟨_, ?_, hroom'⟩, rfl, ?_⟩
    · show Route.ofPath? (pathOf (String.ofList _)) = _
      rw [pathOf_append hpath]
      exact hroute
    · show queryField? (queryOf (String.ofList _)) "token" = _
      rw [queryOf_append hpath hquery]
      exact queryField?_escaped hname rfl token.ascii
  | presence | call =>
    refine ⟨rfl, ⟨_, ?_, hroom'⟩, ?_⟩
    · show Route.ofPath? (pathOf (String.ofList _)) = _
      rw [pathOf_ofList hpath]
      exact hroute
    · have hname : Request.lowerName "authorization" = "authorization" := by decide
      simp [Endpoint.Shows, Endpoint.request, Request.header?, hname]

end Requests

/-! ## Every token, text, request and world -/

/-- For any plain token and any text the checks come to the verdict. Both can be put to all
doors, but for an empty text, which has no way to a socket. Whatever request does so and
whatever the world is like, the reply is the refusal of the verdict, the same at each door,
or what the door gives to whoever is admitted; and the world stays as it was. A refusal over
the token or the text is the same in all worlds; any other is the same in all worlds in
which the store answers the two questions alike. -/
theorem verdicts_agree_and_leak_nothing (site : Site) (token : PlainToken) (room : String) :
    (∀ w, (authorizeRequest site.verify (some token.text) room).run w
      = (verdict site.verify w token.text room, w)) ∧
    (∀ e : Endpoint, (e = .socket → room ≠ "") → ∃ req, e.Asks true req token.text room) ∧
    ∀ (e : Endpoint) (upgradable : Bool) (req : Request),
      e.Asks upgradable req token.text room →
      let cors := site.cors.headers (req.header? "origin")
      let refused (refusal : Refusal) : Reply := .response (refusal.response.withHeaders cors)
      let reply (w : World) : Reply := ((answer site upgradable req).run w).1
      (∀ w refusal, verdict site.verify w token.text room = .error refusal →
        (answer site upgradable req).run w = (refused refusal, w)) ∧
      (∀ w who r, verdict site.verify w token.text room = .ok (who, r) →
        (answer site upgradable req).run w = ((e.grant w who r).withHeaders cors, w)) ∧
      ((∀ who, site.verify token.text ≠ .ok who) →
        ∃ refusal : Refusal, refusal.status = 401 ∧ ∀ w, reply w = refused refusal) ∧
      (∀ who, site.verify token.text = .ok who → (∀ r, RoomId.parse room ≠ .ok r) →
        ∀ w, reply w = refused ⟨400, "invalid room id"⟩) ∧
      ∀ who r, site.verify token.text = .ok who → RoomId.parse room = .ok r →
        ∀ w w' : World, w.AnswersAlike w' r who.user →
        ∀ refusal, verdict site.verify w token.text room = .error refusal →
          reply w = refused refusal ∧ reply w' = refused refusal := by
  refine ⟨fun w => run_authorizeRequest token.nonempty,
    fun e hroom => ⟨_, asks_request token hroom⟩, fun e upgradable req hasks => ?_⟩
  intro cors refused reply
  have hrefused : ∀ w refusal, verdict site.verify w token.text room = .error refusal →
      (answer site upgradable req).run w = (refused refusal, w) := by
    intro w refusal hverdict
    rw [run_answer hasks]
    unfold Endpoint.reply
    rw [hverdict]
    rfl
  have hreply : ∀ w refusal, verdict site.verify w token.text room = .error refusal →
      reply w = refused refusal :=
    fun w refusal hverdict => congrArg Prod.fst (hrefused w refusal hverdict)
  refine ⟨hrefused, fun w who r hverdict => ?_, fun hnobody => ?_,
    fun who hwho hnowhere w => ?_, fun who r hwho hr w w' halike refusal hverdict => ?_⟩
  · rw [run_answer hasks]
    unfold Endpoint.reply
    rw [hverdict]
  · obtain ⟨refusal, hstatus, hall⟩ := verdict_of_unproven room hnobody
    exact ⟨refusal, hstatus, fun w => hreply w refusal (hall w)⟩
  · exact hreply w _ (verdict_of_unnamed hwho hnowhere w)
  · refine ⟨hreply w refusal hverdict, hreply w' refusal ?_⟩
    rw [← verdict_congr hwho hr halike]
    exact hverdict

/-- A site that knows one token. -/
def oneToken : Site where
  verify t := if t = "t0" then .ok ⟨⟨⟨5⟩⟩, "ann"⟩ else .error (.invalid .signature)
  cors := ⟨.any, false⟩

/-- That token. -/
def knownToken : PlainToken := ⟨"t0", by decide, by simp⟩

/-- A room without members, and nobody connected to it. -/
def quietWorld : World := .ofStore (Store.ofSeed [⟨⟨⟨7⟩⟩, "lobby", []⟩]) .epoch

/-- The same room with a member, a message and a connection, and a store that cannot list
members. -/
def busyWorld : World where
  hub := (Hub.empty.attach ⟨⟨⟨1⟩⟩, ⟨⟨7⟩⟩, ⟨⟨⟨6⟩⟩, "bob"⟩⟩).2
  store := ((Store.ofSeed [⟨⟨⟨7⟩⟩, "lobby", [⟨⟨⟨6⟩⟩, "bob"⟩]⟩]).persist .epoch ⟨⟨7⟩⟩ ⟨⟨6⟩⟩
    ⟨"hello", .text, none⟩).2
  clock := .epoch
  outage := Outage.none.set .listMembers (some "down")

/-- How the room is written. -/
def roomText : String := "00000000-0000-0000-0000-000000000007"

/-- What a caller who is no member is told. -/
def forbidden : Reply :=
  .response ((Refusal.response ⟨403, "forbidden"⟩).withHeaders
    [("access-control-allow-origin", "*")])

/-- A stranger to the room is forbidden at three doors, whoever is connected. -/
theorem verdicts_agree_and_leak_nothing_stranger :
    Endpoint.presence.Asks true (Endpoint.presence.request "t0" roomText) "t0" roomText ∧
      ((answer oneToken true (Endpoint.presence.request "t0" roomText)).run quietWorld).1
        = forbidden ∧
      ((answer oneToken true (Endpoint.presence.request "t0" roomText)).run busyWorld).1
        = forbidden ∧
      (answer oneToken true (Endpoint.socket.request "t0" roomText)).run busyWorld
        = (forbidden, busyWorld) := by
  have hpresence : Endpoint.presence.Asks true (Endpoint.presence.request "t0" roomText) "t0"
      roomText := asks_request knownToken fun heq => by cases heq
  have hsocket : Endpoint.socket.Asks true (Endpoint.socket.request "t0" roomText) "t0"
      roomText := asks_request knownToken fun _ => by decide
  obtain ⟨-, -, hreplies⟩ := verdicts_agree_and_leak_nothing oneToken knownToken roomText
  obtain ⟨-, -, -, -, halike⟩ := hreplies _ true _ hpresence
  obtain ⟨hrefused, -⟩ := hreplies _ true _ hsocket
  obtain ⟨hquiet, hbusy⟩ := halike ⟨⟨⟨5⟩⟩, "ann"⟩ ⟨⟨7⟩⟩ rfl rfl quietWorld busyWorld ⟨rfl, rfl⟩
    ⟨403, "forbidden"⟩ rfl
  exact ⟨hpresence, hquiet, hbusy, hrefused busyWorld ⟨403, "forbidden"⟩ rfl⟩

end Http

end RoomHub
