import RoomHub.Http.Exchange
import RoomHub.Text.Blank

/-!
# Which pages of other origins may ask

A policy allows every origin, or a list of origins together with credentials. An entry
that trims to a star allows every origin, and then never credentials. Otherwise the
entries are trimmed; blank ones and those that cannot be a header value are left out, and
an origin is allowed when it equals one that remains, byte for byte. Without any entry
nothing is allowed.
-/

namespace RoomHub.Http

/-- Which origins a policy allows. -/
inductive OriginRule where
  | any
  | listed (origins : List String)
  deriving DecidableEq, Repr

/-- A policy for pages of other origins. -/
structure Cors where
  rule : OriginRule
  credentials : Bool
  deriving DecidableEq, Repr

namespace Cors

/-- Whether the rules for such policies permit this one: a star stands for itself only,
never in a list and never together with credentials. -/
def isLawful (p : Cors) : Bool :=
  match p.rule with
  | .any => !p.credentials
  | .listed origins => !origins.contains "*"

/-- Whether a text can be the value of a header: no control character but the tab. -/
def isHeaderValue (s : String) : Bool :=
  (Text.Utf8.bytes s).all fun b => b = 0x09 || (0x20 ≤ b && b ≠ 0x7F)

/-- The trimmed entries that are not blank. -/
def entries (origins : List String) : List String :=
  (origins.map Text.trim).filter (!·.isEmpty)

/-- The entries that an origin is compared with. -/
def usable (origins : List String) : List String := (entries origins).filter isHeaderValue

/-- The entries that are left out with a warning. -/
def rejected (origins : List String) : List String :=
  (entries origins).filter (!isHeaderValue ·)

/-- Whether an entry allows every origin. -/
def hasStar (origins : List String) : Bool := origins.any fun o => Text.trim o = "*"

/-- The policy that a list of entries makes. -/
def ofOrigins (origins : List String) : Cors :=
  if hasStar origins then ⟨.any, false⟩
  else
    let listed := usable origins
    ⟨.listed listed, !listed.isEmpty⟩

/-- The entries that are warned about: none when every origin is allowed anyway. -/
def warnings (origins : List String) : List String :=
  if hasStar origins then [] else rejected origins

/-- The warning about an entry. -/
def warning (entry : String) : String := s!"Ignoring invalid CORS origin '{entry}'"

/-! ## Headers -/

/-- The origin that a response names as allowed, for the origin of the request. -/
def allowedOrigin? (p : Cors) (origin : Option (List UInt8)) : Option String :=
  match p.rule with
  | .any => some "*"
  | .listed origins => origins.find? fun o => some (Text.Utf8.bytes o) = origin

/-- The headers of every response. -/
def headers (p : Cors) (origin : Option (List UInt8)) : List (String × String) :=
  ((p.allowedOrigin? origin).toList.map fun o => ("access-control-allow-origin", o)) ++
    (if p.credentials then [("access-control-allow-credentials", "true")] else [])

/-- The headers that answer a question before a request. -/
def preflightHeaders : List (String × String) :=
  [("access-control-allow-methods", "GET,OPTIONS"),
   ("access-control-allow-headers", "content-type,authorization"),
   ("access-control-max-age", "3600")]

end Cors

end RoomHub.Http
