import RoomHub.Settings.HubSettings
import RoomHub.Text.Decimal
import RoomHub.Text.Split

/-!
# Command-line arguments

Each option takes one value: `--name value`, `--name=value`, and for two of them a letter,
`-p value`, `-pvalue` or `-p=value`. Every option has a variable of the environment
that counts when the option is not given, and most have a default. An option may be given
once; the list of origins may be repeated.

A value is examined when the next option begins or the arguments end, and variables after
the arguments, in the order of the table. What is not an option at all is reported before
anything that is wrong with an option still being read.
-/

namespace RoomHub

/-- The options. -/
inductive OptionKey where
  | host
  | port
  | secret
  | seed
  | origins
  | logLevel
  | idleTimeout
  | pingInterval
  | capacity
  | historyLimit
  | writeTimeout
  | maxFrame
  deriving DecidableEq, Repr

/-- What the values of an option look like. -/
inductive ValueKind where
  | text
  | path
  | port
  | word
  | list
  deriving DecidableEq, Repr

/-- How an option is written and what it takes. -/
structure OptionSpec where
  key : OptionKey
  long : String
  short : Option Char
  envName : String
  kind : ValueKind

/-- Why arguments are refused, or that help was asked for. -/
inductive ArgumentsError where
  | displayHelp
  | unknownArgument
  | invalidValue
  | valueValidation
  | argumentConflict
  | tooManyValues
  | missingRequired
  deriving DecidableEq, Repr

/-- The word for a refusal. -/
def ArgumentsError.message : ArgumentsError → String
  | displayHelp => "DisplayHelp"
  | unknownArgument => "UnknownArgument"
  | invalidValue => "InvalidValue"
  | valueValidation => "ValueValidation"
  | argumentConflict => "ArgumentConflict"
  | tooManyValues => "TooManyValues"
  | missingRequired => "MissingRequiredArgument"

/-- What the program was started with. -/
structure Arguments where
  host : String
  port : Nat
  secret : String
  seed : Option String
  origins : List String
  logLevel : String
  idleTimeout : Nat
  pingInterval : Option Nat
  capacity : Nat
  historyLimit : Nat
  writeTimeout : Nat
  maxFrame : Nat
  deriving DecidableEq, Repr

namespace Arguments

/-- The table of options. -/
def options : List OptionSpec :=
  [⟨.host, "host", some 'H', "PARLOR_HOST", .text⟩,
   ⟨.port, "port", some 'p', "PARLOR_PORT", .port⟩,
   ⟨.secret, "jwt-secret", none, "PARLOR_JWT_SECRET", .text⟩,
   ⟨.seed, "seed", none, "PARLOR_SEED", .path⟩,
   ⟨.origins, "allowed-origins", none, "PARLOR_ALLOWED_ORIGINS", .list⟩,
   ⟨.logLevel, "log-level", none, "PARLOR_LOG_LEVEL", .text⟩,
   ⟨.idleTimeout, "idle-timeout-secs", none, "PARLOR_IDLE_TIMEOUT_SECS", .word⟩,
   ⟨.pingInterval, "ping-interval-secs", none, "PARLOR_PING_INTERVAL_SECS", .word⟩,
   ⟨.capacity, "outbound-capacity", none, "PARLOR_OUTBOUND_CAPACITY", .word⟩,
   ⟨.historyLimit, "history-limit", none, "PARLOR_HISTORY_LIMIT", .word⟩,
   ⟨.writeTimeout, "write-timeout-secs", none, "PARLOR_WRITE_TIMEOUT_SECS", .word⟩,
   ⟨.maxFrame, "max-frame-bytes", none, "PARLOR_MAX_FRAME_BYTES", .word⟩]

/-! ## Values -/

/-- A port: a number below 65536 that may have a sign before it. -/
def port? (s : String) : Option Nat :=
  match s.toList with
  | '-' :: ds =>
    match ds with
    | '+' :: _ => none
    | _ => (Text.Decimal.parseBelow? 1 (String.ofList ds))
  | _ => Text.Decimal.parseBelow? 65536 s

/-- A number of 64 bits. -/
def word? (s : String) : Option Nat := Text.Decimal.parseBelow? UInt64.size s

/-- Whether a value may be given for an option. -/
def checkValue (kind : ValueKind) (s : String) : Except ArgumentsError Unit :=
  match kind with
  | .text => .ok ()
  | .list => .ok ()
  | .path => if s.isEmpty then .error .invalidValue else .ok ()
  | .port => if (port? s).isSome then .ok () else .error .valueValidation
  | .word => if (word? s).isSome then .ok () else .error .valueValidation

/-! ## Reading the command line -/

/-- The values given so far, with the option that is still being read and its value. -/
structure Reader where
  given : List (OptionKey × String)
  pending : Option (OptionSpec × Option String)
  literal : Bool

/-- Nothing is read. -/
def Reader.start : Reader := ⟨[], none, false⟩

/-- Records a value of an option. -/
def record (given : List (OptionKey × String)) (spec : OptionSpec) (value : Option String) :
    Except ArgumentsError (List (OptionKey × String)) :=
  match value with
  | none => .error .invalidValue
  | some v =>
    if spec.kind ≠ .list ∧ given.any (·.1 = spec.key) then .error .argumentConflict
    else do
      checkValue spec.kind v
      return given ++ [(spec.key, v)]

/-- Ends the option that is being read. -/
def Reader.settle (r : Reader) : Except ArgumentsError Reader :=
  match r.pending with
  | none => .ok r
  | some (spec, value) => do
    return { r with given := ← record r.given spec value, pending := none }

/-- Begins an option, with its value when that is attached. -/
def Reader.begin (r : Reader) (spec : OptionSpec) (attached : Option String) :
    Except ArgumentsError Reader := do
  let r ← r.settle
  match attached with
  | some v => return { r with given := ← record r.given spec (some v) }
  | none => return { r with pending := some (spec, none) }

/-- Reads `--name` or `--name=value`, without the hyphens. -/
def Reader.long (r : Reader) (cs : List Char) : Except ArgumentsError Reader :=
  let name := String.ofList (cs.takeWhile (· ≠ '='))
  let attached := match cs.dropWhile (· ≠ '=') with
    | _ :: v => some (String.ofList v)
    | [] => none
  if name = "help" then
    if attached.isSome then .error .tooManyValues
    else do
      let _ ← r.settle
      throw .displayHelp
  else match options.find? (·.long = name) with
    | some spec => r.begin spec attached
    | none => .error .unknownArgument

/-- Reads a letter and what is attached to it. -/
def Reader.short (r : Reader) (c : Char) (rest : List Char) : Except ArgumentsError Reader :=
  if c = 'h' then do
    let _ ← r.settle
    throw .displayHelp
  else match options.find? (·.short = some c) with
    | none => .error .unknownArgument
    | some spec =>
      r.begin spec (match rest with
        | [] => none
        | '=' :: v => some (String.ofList v)
        | v => some (String.ofList v))

/-- Reads one argument. -/
def Reader.feed (r : Reader) (arg : String) : Except ArgumentsError Reader :=
  if r.literal then .error .unknownArgument
  else match arg.toList with
    | ['-', '-'] => .ok { r with literal := true }
    | '-' :: '-' :: cs => r.long cs
    | '-' :: c :: rest => r.short c rest
    | _ =>
      match r.pending with
      | some (spec, none) => .ok { r with pending := some (spec, some arg) }
      | _ => .error .unknownArgument

/-- Adds the variables of options that were not given. -/
def addVariables (env : String → Option String) (given : List (OptionKey × String)) :
    List OptionSpec → Except ArgumentsError (List (OptionKey × String))
  | [] => .ok given
  | spec :: rest =>
    match env spec.envName with
    | none => addVariables env given rest
    | some v =>
      if given.any (·.1 = spec.key) then addVariables env given rest
      else do addVariables env (← record given spec (some v)) rest

/-- The arguments that the given values make, with the defaults for the others. -/
def ofGiven (given : List (OptionKey × String)) : Except ArgumentsError Arguments :=
  let value := fun key => (given.find? (·.1 = key)).map (·.2)
  let number := fun key default => ((value key).bind word?).getD default
  match value .secret with
  | none => .error .missingRequired
  | some secret => .ok
    { host := (value .host).getD "127.0.0.1"
      port := ((value .port).bind port?).getD 8080
      secret := secret
      seed := value .seed
      origins := (given.filter (·.1 = .origins)).flatMap fun g => Text.splitText ',' g.2
      logLevel := (value .logLevel).getD "info"
      idleTimeout := number .idleTimeout 60
      pingInterval := (value .pingInterval).bind word?
      capacity := number .capacity 64
      historyLimit := number .historyLimit 50
      writeTimeout := number .writeTimeout 10
      maxFrame := number .maxFrame 4096 }

/-- Reads arguments in an environment. -/
def parse (args : List String) (env : String → Option String) :
    Except ArgumentsError Arguments := do
  let r ← args.foldlM Reader.feed Reader.start
  let r ← r.settle
  ofGiven (← addVariables env r.given options)

/-! ## Help -/

/-- The line of the help text for an option. -/
def helpLine (spec : OptionSpec) : String :=
  let short := match spec.short with
    | some c => s!"-{c}, "
    | none => "    "
  s!"  {short}--{spec.long} <{spec.long}>  [env: {spec.envName}]"

/-- The help text of a program. -/
def help (program : String) : String :=
  "\n".intercalate
    ([s!"Usage: {program} [options]", "", "Options:"] ++ options.map helpLine ++
      ["  -h, --help"])

/-! ## Settings -/

/-- The settings that arguments ask for, once validated. -/
def hubSettings (a : Arguments) : Except SettingsError HubSettings :=
  let idle := Duration.ofSeconds a.idleTimeout
  let ping := match a.pingInterval with
    | some s => some (Duration.ofSeconds s)
    | none => HubSettings.defaultPing idle
  match ping with
  | none => .error .idleTooLong
  | some ping =>
    HubSettings.validate ⟨idle, ping, a.capacity, a.historyLimit,
      Duration.ofSeconds a.writeTimeout, a.maxFrame⟩

end Arguments

end RoomHub
