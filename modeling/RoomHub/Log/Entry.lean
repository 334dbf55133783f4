/-!
# Log entries

An entry has a level, a target, which names the part of the program that it comes from, a
message and fields. Levels are ordered by how much they let through: an entry is shown when
its level is at most the one that is asked for.
-/

namespace RoomHub.Log

/-- How grave an entry is. -/
inductive Level where
  | error
  | warn
  | info
  | debug
  | trace
  deriving DecidableEq, Repr

namespace Level

/-- The rank of a level: the graver, the lower. -/
def rank : Level → Nat
  | error => 1
  | warn => 2
  | info => 3
  | debug => 4
  | trace => 5

/-- The word for a level. -/
def toText : Level → String
  | error => "ERROR"
  | warn => "WARN"
  | info => "INFO"
  | debug => "DEBUG"
  | trace => "TRACE"

end Level

/-- An entry. -/
structure Entry where
  level : Level
  target : String
  message : String
  fields : List (String × String)
  deriving DecidableEq, Repr

namespace Entry

/-- An entry without fields. -/
def plain (level : Level) (target message : String) : Entry := ⟨level, target, message, []⟩

/-- The message with the fields behind it. -/
def toText (e : Entry) : String :=
  " ".intercalate (e.message :: e.fields.map fun (k, v) => s!"{k}={v}")

end Entry

end RoomHub.Log
