import RoomHub.Log.Entry
import RoomHub.Text.Split

/-!
# Which log entries are shown

A filter is a list of directives. A directive sets the greatest rank that is shown, for
everything or for the targets that begin with a name; of the directives that fit a target
the one with the longest name counts, and of two with the same name the later one. Text
that is no directive makes a filter given by the caller invalid as a whole, and is left
out of one that the program makes itself.
-/

namespace RoomHub.Log

/-- A directive: the name that targets begin with, or none for all of them, and the
greatest rank that is shown. A directive for a span fits no entry outside of spans. -/
structure Directive where
  target : Option String
  inSpan : Bool
  rank : Nat
  deriving DecidableEq, Repr

namespace Directive

/-- The rank that a word or a digit names, in either letter case. -/
def rank? (s : String) : Option Nat :=
  match String.ofList (s.toList.map Char.toLower) with
  | "off" => some 0
  | "error" => some 1
  | "warn" => some 2
  | "info" => some 3
  | "debug" => some 4
  | "trace" => some 5
  | "0" => some 0
  | "1" => some 1
  | "2" => some 2
  | "3" => some 3
  | "4" => some 4
  | "5" => some 5
  | _ => none

/-- Whether a character may stand in the name of a target. -/
def isNameChar (c : Char) : Bool :=
  c.isAlphanum || c = '_' || c = ':' || c = '-' || 0x80 ≤ c.toNat

/-- Reads the name of a target, the span in brackets behind it, and what follows. -/
def nameAndSpan? (cs : List Char) : Option (List Char × Bool × List Char) :=
  let name := cs.takeWhile isNameChar
  match cs.dropWhile isNameChar with
  | '[' :: rest =>
    match rest.dropWhile (· ≠ ']') with
    | ']' :: after => some (name, true, after)
    | _ => none
  | rest => if name.isEmpty then none else some (name, false, rest)

/-- Reads a directive. A name without a level shows everything. -/
def parse? (s : String) : Option Directive :=
  match rank? s with
  | some r => some ⟨none, false, r⟩
  | none => do
    let (name, inSpan, rest) ← nameAndSpan? s.toList
    let target := if name.isEmpty then none else some (String.ofList name)
    match rest with
    | [] => return ⟨target, inSpan, 5⟩
    | ['='] => return ⟨target, inSpan, 5⟩
    | '=' :: level => return ⟨target, inSpan, ← rank? (String.ofList level)⟩
    | _ => none

/-- Whether a directive fits the entries of a target. -/
def fits (target : String) (d : Directive) : Bool :=
  !d.inSpan && (d.target.getD "").toList.isPrefixOf target.toList

/-- How much a directive says about its targets. -/
def specificity (d : Directive) : Nat :=
  match d.target with
  | none => 0
  | some t => t.utf8ByteSize + 1

end Directive

/-- A list of directives. -/
abbrev Filter := List Directive

namespace Filter

/-- The parts of a text between commas that are not empty. -/
def parts (s : String) : List String := (Text.splitText ',' s).filter (!·.isEmpty)

/-- A filter that shows errors only, for want of any directive. -/
def orErrors (f : Filter) : Filter := if f.isEmpty then [⟨none, false, 1⟩] else f

/-- Reads a filter given by the caller. -/
def parse? (s : String) : Option Filter := ((parts s).mapM Directive.parse?).map orErrors

/-- Reads a filter that the program makes itself. -/
def lenient (s : String) : Filter := orErrors ((parts s).filterMap Directive.parse?)

/-- The more specific of two directives, the second when they are equally specific. -/
def prefer (best : Option Directive) (d : Directive) : Option Directive :=
  match best with
  | none => some d
  | some b => if b.specificity ≤ d.specificity then some d else some b

/-- The greatest rank that is shown for a target. -/
def rankFor (f : Filter) (target : String) : Nat :=
  match (List.filter (Directive.fits target) f).foldl prefer none with
  | some d => d.rank
  | none => 0

/-- The entries that are shown. -/
def apply (f : Filter) (es : List Entry) : List Entry :=
  es.filter fun e => e.level.rank ≤ f.rankFor e.target

/-- A name as it stands in a target. -/
def targetName (name : String) : String :=
  String.ofList (name.toList.map fun c => if c = '-' then '_' else c)

/-- The directives for a program: one level for its library, for the program itself, and
for the HTTP layer. -/
def defaultText (library program level : String) : String :=
  let names := if targetName library = targetName program then [targetName library]
    else [targetName library, targetName program]
  ",".intercalate ((names ++ ["tower_http"]).map fun n => s!"{n}={level}")

end Filter

end RoomHub.Log
