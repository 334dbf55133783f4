import RoomHub.Crypto.Hmac
import RoomHub.Json.Trial
import RoomHub.Participant
import RoomHub.Calendar
import RoomHub.Text.Base64Url
import RoomHub.Text.Blank

/-!
# Identity tokens

A token is three texts with dots between them: a header and claims, each JSON in base64
for URLs, and the tag of the first two under a secret, in base64 as well. The tag is
compared as text, so of the texts that decode to it only one is accepted.

The authenticator is a parameter everywhere. `verify` checks, in this order: the shape,
the header's base64 and JSON, its algorithm, the tag, the claims' base64 and JSON, the
expiry, the audience, and that the name is not blank.
-/

namespace RoomHub

/-! ## Secrets -/

/-- The fewest bytes of a secret. -/
def Secret.minLength : Nat := 32

/-- A secret that is long enough. -/
structure Secret where
  bytes : List UInt8
  long : Secret.minLength ≤ bytes.length
  deriving DecidableEq, Repr

/-- A secret that is too short. -/
structure ShortSecret where
  length : Nat
  deriving DecidableEq, Repr

/-- The text shown for a secret that is too short. -/
def ShortSecret.message (e : ShortSecret) : String :=
  s!"jwt secret must be at least {Secret.minLength} characters long (got {e.length})"

/-- Accepts a secret by its length in bytes. -/
def Secret.ofText (s : String) : Except ShortSecret Secret :=
  let bs := Text.Utf8.bytes s
  if h : Secret.minLength ≤ bs.length then .ok ⟨bs, h⟩ else .error ⟨bs.length⟩

/-! ## Errors -/

/-- What is wrong with a token that does not hold. -/
inductive TokenFault where
  | shape
  | base64
  | json
  | algorithm
  | signature
  | missingClaim (name : String)
  | expired
  | audience
  deriving DecidableEq, Repr

/-- The words for a fault. -/
def TokenFault.message : TokenFault → String
  | shape => "InvalidToken"
  | base64 => "Base64 error"
  | json => "JSON error"
  | algorithm => "InvalidAlgorithm"
  | signature => "InvalidSignature"
  | missingClaim name => s!"Missing required claim: {name}"
  | expired => "ExpiredSignature"
  | audience => "InvalidAudience"

/-- Why a token proves no identity. -/
inductive TokenError where
  | missing
  | invalid (fault : TokenFault)
  | blankName
  deriving DecidableEq, Repr

/-- The text shown for a token that proves no identity. -/
def TokenError.message : TokenError → String
  | missing => "missing identity token"
  | invalid fault => s!"invalid identity token: {fault.message}"
  | blankName => "invalid identity token payload: username claim is empty"

namespace Token

/-! ## Issuing -/

/-- How long a token holds, in seconds. -/
def lifetime : Int := 24 * 60 * 60

/-- What a token claims. -/
structure Claims where
  user : UserId
  name : String
  issuedAt : Int
  expires : Int
  deriving DecidableEq, Repr

/-- The claims as JSON. -/
def Claims.toJson (c : Claims) : Json :=
  .record [("uid", .text c.user.toText), ("username", .text c.name),
    ("iat", .int c.issuedAt), ("exp", .int c.expires)]

/-- The header of every token that is issued. -/
def header : Json := .record [("typ", .text "JWT"), ("alg", .text "HS256")]

/-- A JSON value as a part of a token. -/
def part (v : Json) : List Char := Text.Base64Url.encode (Text.Utf8.bytes v.render)

/-- The text of the tag of a message. -/
def tag (mac : Crypto.Mac) (secret : Secret) (message : List Char) : List Char :=
  Text.Base64Url.encode (mac secret.bytes (Text.Utf8.bytes (String.ofList message)))

/-- The token for claims. -/
def sign (mac : Crypto.Mac) (secret : Secret) (c : Claims) : String :=
  let message := part header ++ '.' :: part c.toJson
  String.ofList (message ++ '.' :: tag mac secret message)

/-- The token for an identity at a moment. -/
def issue (mac : Crypto.Mac) (secret : Secret) (who : Participant) (now : Instant) : String :=
  sign mac secret ⟨who.user, who.name, now.seconds, now.seconds + lifetime⟩

/-! ## Reading the header -/

/-- The algorithms that a header may name; one of them is accepted. -/
def algorithms : List String :=
  ["HS256", "HS384", "HS512", "ES256", "ES384", "RS256", "RS384", "RS512", "PS256",
   "PS384", "PS512", "EdDSA"]

/-- An optional field: missing, `null` or read by `f`. -/
def optional? {α : Type} (f : Json → Option α) : Option Json → Option (Option α)
  | none => some none
  | some v => v.asOption? f

/-- The fields of a header, in order. -/
def headerFields : List String :=
  ["typ", "alg", "cty", "jku", "jwk", "kid", "x5u", "x5c", "x5t", "x5t#S256"]

/-- Whether a value inside another one can be used as a whole. -/
def usable (v : Json) : Bool := v.depth < Json.depthLimit && v.sound

/-- Whether a value is a text. -/
def isText (v : Json) : Bool := v.asString?.isSome

/-- Whether a value is a list of texts. -/
def isTexts (v : Json) : Bool := (v.asList? Json.asString?).isSome

/-- Whether a value is a variant with one of the names. -/
def isOneOf (names : List String) (v : Json) : Bool := v.asVariant?.any names.contains

/-- Whether a value names the algorithm that a key is for. Any name will do, and an empty
object may stand for the `null` of a variant. -/
def isKeyAlgorithm : Json → Bool
  | .object [(name, .object [])] => name.isSome
  | v => v.asVariant?.isSome

/-- The parameters that a key of any type may have. -/
def commonParameters : List (String × (Json → Bool)) :=
  [("use", isText), ("key_ops", isTexts), ("alg", isKeyAlgorithm), ("kid", isText),
   ("x5u", isText), ("x5c", isTexts), ("x5t", isText), ("x5t#S256", isText)]

/-- The curves that a key may be on. -/
def curves : List String := ["P-256", "P-384", "P-521", "Ed25519"]

/-- The parameters that a key of each type has. -/
def keyParameters : List (List (String × (Json → Bool))) :=
  [[("kty", isOneOf ["EC"]), ("crv", isOneOf curves), ("x", isText), ("y", isText)],
   [("kty", isOneOf ["RSA"]), ("n", isText), ("e", isText)],
   [("kty", isOneOf ["oct"]), ("k", isText)],
   [("kty", isOneOf ["OKP"]), ("crv", isOneOf curves), ("x", isText)]]

/-- Whether a value describes a public key: an object with the parameters of one type, and
with common ones that can be read, none of them twice. -/
def isKey : Json → Bool
  | .object members =>
    let common := fun (p : String × (Json → Bool)) =>
      match Json.membersNamed p.1 members with
      | [] => true
      | [.null] => true
      | [v] => p.2 v
      | _ => false
    let own := fun (p : String × (Json → Bool)) =>
      match Json.membersNamed p.1 members with
      | [v] => p.2 v
      | _ => false
    usable (.object members) && commonParameters.all common && keyParameters.any (·.all own)
  | _ => false

/-- The algorithm that a header names, when it is a header at all. Written as an array it
lists every field. -/
def algorithm? (v : Json) : Option String :=
  match v.fields? headerFields with
  | some [typ, some alg, cty, jku, jwk, kid, x5u, x5c, x5t, x5tS256] => do
    let alg ← alg.asVariant?
    let _ ← [typ, cty, jku, kid, x5u, x5t, x5tS256].mapM (optional? Json.asString?)
    let _ ← optional? (Json.asList? Json.asString?) x5c
    let _ ← optional? (fun v => if isKey v then some v else none) jwk
    if v.listsAll headerFields && algorithms.contains alg then some alg else none
  | _ => none

/-! ## Reading the claims -/

/-- What a token's claims say: those of an identity, and whether there is an audience. -/
structure Reading where
  claims : Claims
  audience : Bool
  deriving DecidableEq, Repr

/-- The four claims of an identity. -/
def claims? (v : Json) : Option Claims :=
  match v.fields? ["uid", "username", "iat", "exp"] with
  | some [some uid, some name, some iat, some exp] =>
    return ⟨← uid.asString?.bind (Id.parse? .user), ← name.asString?, ← iat.asInt64?,
      ← exp.asInt64?⟩
  | _ => none

/-- Whether a value names an audience: a text or a list of texts. -/
def isAudience (v : Json) : Bool := isText v || isTexts v

/-- Reads claims. An audience is noted, and may occur once. Claims written as an array are never
complete. -/
def reading? (v : Json) : Option Reading := do
  let claims ← claims? v
  match v with
  | .object members => return ⟨claims, (← Json.member? members "aud").any isAudience⟩
  | _ => none

/-! ## Passing over claims

The claims that the standard registers are tried when the four of the identity have been read, and
a claim that cannot be used is passed over. -/

/-- Whether a reader gets behind a value that it tries to use as a whole. -/
def passes (mark : Char) (v : Json) : Bool :=
  v.depth < Json.depthLimit && v.trial mark ≠ .within

/-- Whether a reader gets behind a value that it tries to use as a number: of a container it sees
nothing but the first bracket and, when it is empty, the second. -/
def numberPasses (mark : Char) : Json → Bool
  | .array items => items.isEmpty
  | .object members => members.isEmpty
  | v => passes mark v

/-- Whether a reader gets behind a value that it tries to use as a text: in front of a container
it stops. -/
def textPasses (mark : Char) : Json → Bool
  | .array _ => false
  | .object _ => false
  | v => passes mark v

/-- The claims that are tried, each with the values that the reader gets behind. -/
def registered (mark : Char) : List (String × (Json → Bool)) :=
  [("nbf", numberPasses mark), ("sub", textPasses mark), ("iss", passes mark),
   ("aud", passes mark)]

/-- Whether a reader gets to the end of the claims. Each that is tried may occur once. -/
def allPass (mark : Char) : Json → Bool
  | .object members => (registered mark).all fun claim =>
      (Json.member? members claim.1).any fun value => value.all claim.2
  | _ => false

/-! ## Verifying -/

/-- The text before the last dot and the text behind it. -/
def splitLast? (cs : List Char) : Option (List Char × List Char) :=
  let behind := (cs.reverse.takeWhile (· ≠ '.')).reverse
  let before := (cs.reverse.dropWhile (· ≠ '.')).reverse
  if before.isEmpty then none else some (before.dropLast, behind)

/-- Turns a missing value into a fault. -/
def orFault {α : Type} (fault : TokenFault) : Option α → Except TokenFault α
  | some a => .ok a
  | none => .error fault

/-- Reads a header part. -/
def readHeader (cs : List Char) : Except TokenFault String := do
  let bytes ← orFault .base64 (Text.Base64Url.decode? cs)
  orFault .json ((Json.parseBytes? bytes).bind algorithm?)

/-- Reads a claims part, once for the identity and once for the registered claims. -/
def readClaims (cs : List Char) : Except TokenFault Reading := do
  let bytes ← orFault .base64 (Text.Base64Url.decode? cs)
  let r ← orFault .json ((Json.parseBytes? bytes).bind reading?)
  let mark := Json.markFor bytes
  if !(Json.parseMarked? mark bytes).any (allPass mark) then throw .json
  return r

/-- Checks everything but the name at a present second. -/
def check (mac : Crypto.Mac) (secret : Secret) (now : Int) (token : List Char) :
    Except TokenFault Claims := do
  let (message, signature) ← orFault .shape (splitLast? token)
  let (headerPart, claimsPart) ← orFault .shape (splitLast? message)
  let alg ← readHeader headerPart
  if alg ≠ "HS256" then throw .algorithm
  if signature ≠ tag mac secret message then throw .signature
  let r ← readClaims claimsPart
  if r.claims.expires < 0 then throw (.missingClaim "exp")
  if r.claims.expires < now then throw .expired
  if r.audience then throw .audience
  return r.claims

/-- The identity that a token proves at a present second. -/
def verify (mac : Crypto.Mac) (secret : Secret) (now : Int) (token : String) :
    Except TokenError Participant :=
  if token.isEmpty then .error .missing
  else match check mac secret now token.toList with
    | .error fault => .error (.invalid fault)
    | .ok c => if Text.isBlank c.name then .error .blankName else .ok ⟨c.user, c.name⟩

end Token

end RoomHub
