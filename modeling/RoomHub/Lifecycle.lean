/-!
# The life of a connection

A connection is being set up, then active, then draining, then closed. It may start to
drain before it became active, and there is no other step.
-/

namespace RoomHub

/-- The stages in the life of a connection. -/
inductive Stage where
  | connecting
  | active
  | draining
  | closed
  deriving DecidableEq, Repr, Inhabited

namespace Stage

/-- All stages. -/
def all : List Stage := [connecting, active, draining, closed]

/-- The word for a stage. -/
def toText : Stage → String
  | connecting => "connecting"
  | active => "active"
  | draining => "draining"
  | closed => "closed"

/-- The stage that a word names. -/
def ofText? (s : String) : Option Stage := all.find? (·.toText = s)

/-- Whether a connection may step from one stage to another. -/
def mayFollow : Stage → Stage → Bool
  | connecting, active => true
  | connecting, draining => true
  | active, draining => true
  | draining, closed => true
  | _, _ => false

/-- Steps to another stage if that is allowed, and says whether it was. -/
def advance (s next : Stage) : Bool × Stage :=
  if s.mayFollow next then (true, next) else (false, s)

end Stage

end RoomHub
