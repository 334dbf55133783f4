import RoomHub.Duration
import RoomHub.Membership

/-!
# The settings of a hub

How long a silent client is kept, how often it is probed, how many events may wait for
it, how many messages it is shown at first, how long a write may take, and how long a
frame may be. `validate` refuses settings under which a client could not be kept or could
not even join; it reports the first fault in the order of its checks.
-/

namespace RoomHub

/-- The settings of a hub. -/
structure HubSettings where
  idleTimeout : Duration
  pingInterval : Duration
  capacity : Nat
  historyLimit : Nat
  writeTimeout : Duration
  maxFrame : Nat
  deriving DecidableEq, Repr, Inhabited

/-- Why settings are refused. -/
inductive SettingsError where
  | pingNotBelowIdle (ping idle : Duration)
  | zero (name : String)
  | capacityBelowBootstrap (capacity min : Nat)
  | idleTooLong
  deriving DecidableEq, Repr

/-- The text shown for refused settings. -/
def SettingsError.message : SettingsError → String
  | pingNotBelowIdle ping idle =>
    s!"ping interval ({ping.toText}) must be shorter than the idle timeout ({idle.toText})"
  | zero name => s!"{name} must be greater than zero"
  | capacityBelowBootstrap capacity min =>
    s!"outbound capacity ({capacity}) must hold the {min} bootstrap frames"
  | idleTooLong => "overflow when multiplying duration by scalar"

namespace HubSettings

/-- Nine tenths of the idle timeout, so that a probe is always answered in time; `none`
when nine times the timeout is beyond the largest duration. -/
def defaultPing (idle : Duration) : Option Duration :=
  (idle.mul? 9).map (·.div 10 (by decide))

/-- The settings used when nothing else is asked for. -/
def default : HubSettings :=
  ⟨.ofSeconds 60, .ofSeconds 54, 64, 50, .ofSeconds 10, 4096⟩

/-- Accepts settings, or names the first fault. -/
def validate (s : HubSettings) : Except SettingsError HubSettings :=
  if s.idleTimeout.isZero then .error (.zero "idle timeout")
  else if s.pingInterval.isZero then .error (.zero "ping interval")
  else if s.idleTimeout ≤ s.pingInterval then
    .error (.pingNotBelowIdle s.pingInterval s.idleTimeout)
  else if s.capacity = 0 then .error (.zero "outbound capacity")
  else if s.capacity < Membership.bootstrapEvents then
    .error (.capacityBelowBootstrap s.capacity Membership.bootstrapEvents)
  else if s.writeTimeout.isZero then .error (.zero "write timeout")
  else if s.maxFrame = 0 then .error (.zero "max frame size")
  else .ok s

end HubSettings

end RoomHub
