import RoomHub.Proofs.Duration
import RoomHub.Settings.Arguments

/-!
# Which settings are accepted

Settings pass their checks when none of them finds a fault. Whoever does not name a ping interval
gets nine tenths of the idle timeout, and with that the two checks of the interval find nothing, as
long as the timeout is a second or more. Multiplying by nine comes before dividing by ten, so a
timeout may be too long for it.

> `validate_eq_ok`: what accepted settings are like;
> `sized_parse`: the numbers on a command line are of 64 bits;
> `hubSettings_of_defaultPing`: the settings for arguments without a ping interval, or the first fault;
> `default_ping_is_usable`: so the interval is exact, and never the reason for a refusal.
-/

namespace RoomHub

namespace HubSettings

variable {s : HubSettings} {d ping : Duration}

/-- Settings are accepted when none of their checks finds a fault. -/
theorem validate_eq_ok :
    s.validate = .ok s ↔ s.idleTimeout.isZero = false ∧ s.pingInterval.isZero = false ∧
      s.pingInterval.toNanos < s.idleTimeout.toNanos ∧ 0 < s.capacity ∧
      Membership.bootstrapEvents ≤ s.capacity ∧ s.writeTimeout.isZero = false ∧
      0 < s.maxFrame := by
  have hbelow : s.idleTimeout ≤ s.pingInterval ↔
      ¬s.pingInterval.toNanos < s.idleTimeout.toNanos := Nat.not_lt.symm
  unfold validate
  split
  next h => simp [h]
  split
  next h => simp [h]
  split
  next h => simp [hbelow.mp h]
  split
  next h => simp [h]
  split
  next h => simp [Nat.not_le.mpr h]
  split
  next h => simp [h]
  split
  next h => simp [h]
  next => simp_all [Nat.pos_iff_ne_zero]

/-! ## Nine tenths of the idle timeout -/

/-- The multiplication by nine overflows exactly beyond a ninth of the longest duration. -/
theorem defaultPing_eq_none_iff :
    defaultPing d = none ↔ Duration.longest.toNanos < 9 * d.toNanos := by
  unfold defaultPing
  rw [Option.map_eq_none_iff, Duration.mul?_eq_none_iff, Nat.mul_comm]

/-- Of whole seconds there may be a ninth of the largest number of them. -/
theorem defaultPing_ofSeconds_eq_none_iff {seconds : Nat} :
    defaultPing (.ofSeconds seconds) = none ↔ (2 ^ 64 - 1) / 9 < seconds := by
  have htop := Duration.toNanos_longest
  rw [defaultPing_eq_none_iff, Duration.toNanos_ofSeconds]
  simp only [nanosPerSecond, UInt64.size] at *
  omega

/-- The default interval is nine tenths of the timeout, rounded down to the nanosecond. -/
theorem toNanos_defaultPing (h : defaultPing d = some ping) :
    ping.toNanos = 9 * d.toNanos / 10 := by
  obtain ⟨ninefold, hmul, rfl⟩ := Option.map_eq_some_iff.mp h
  rw [Duration.toNanos_div, Duration.toNanos_mul? hmul, Nat.mul_comm]

/-- The default interval is shorter than any timeout but zero. -/
theorem defaultPing_lt_iff (h : defaultPing d = some ping) :
    ping < d ↔ Duration.ofSeconds 0 < d := by
  have hexact := toNanos_defaultPing h
  show ping.toNanos < d.toNanos ↔ (Duration.ofSeconds 0).toNanos < d.toNanos
  rw [Duration.toNanos_ofSeconds, Nat.zero_min, Nat.zero_mul]
  omega

/-- The default interval is usable from a timeout of two nanoseconds on. -/
theorem isZero_defaultPing (h : defaultPing d = some ping) :
    ping.isZero = false ↔ 2 ≤ d.toNanos := by
  have hexact := toNanos_defaultPing h
  rw [Duration.isZero_eq_false]
  omega

end HubSettings

namespace Arguments

variable {a : Arguments} {ping : Duration} {args : List String} {env : String → Option String}

/-! ## The numbers on a command line -/

/-- Every number that settings are made of has 64 bits. -/
structure Sized (a : Arguments) : Prop where
  idleTimeout : a.idleTimeout < UInt64.size
  pingInterval : ∀ n, a.pingInterval = some n → n < UInt64.size
  capacity : a.capacity < UInt64.size
  historyLimit : a.historyLimit < UInt64.size
  writeTimeout : a.writeTimeout < UInt64.size
  maxFrame : a.maxFrame < UInt64.size

/-- A number read from the command line fits into a word of 64 bits. -/
theorem word?_lt {text : String} {n : Nat} (h : word? text = some n) : n < UInt64.size := by
  simp only [word?, Text.Decimal.parseBelow?, Option.ite_none_left_eq_some,
    Option.ite_none_right_eq_some, Option.some.injEq] at h
  obtain ⟨-, hlt, rfl⟩ := h
  exact hlt

/-- A number that was given, or else the default, fits into a word. -/
theorem getD_word?_lt {value : Option String} {default : Nat} (h : default < UInt64.size) :
    (value.bind word?).getD default < UInt64.size := by
  cases hword : value.bind word? with
  | none => exact h
  | some n =>
    obtain ⟨text, -, htext⟩ := Option.bind_eq_some_iff.mp hword
    exact word?_lt htext

/-- All numbers among the arguments fit into words. -/
theorem sized_ofGiven {given : List (OptionKey × String)} (h : ofGiven given = .ok a) :
    a.Sized := by
  unfold ofGiven at h
  dsimp only at h
  split at h
  next => cases h
  next =>
    cases h
    refine ⟨getD_word?_lt (by decide), fun n hn => ?_, getD_word?_lt (by decide),
      getD_word?_lt (by decide), getD_word?_lt (by decide), getD_word?_lt (by decide)⟩
    obtain ⟨text, -, htext⟩ := Option.bind_eq_some_iff.mp hn
    exact word?_lt htext

/-- Whatever is read from a command line and its environment is sized. -/
theorem sized_parse (h : parse args env = .ok a) : a.Sized := by
  unfold parse at h
  simp only [bind, Except.bind] at h
  split at h
  next => cases h
  split at h
  next => cases h
  split at h
  next => cases h
  next => exact sized_ofGiven h

/-! ## Settings without a ping interval -/

/-- The settings for arguments without a ping interval whose idle timeout is not too long, or the
first fault. The two checks of the interval are not among those that can find one. -/
theorem hubSettings_of_defaultPing (hnone : a.pingInterval = none)
    (hdefault : HubSettings.defaultPing (.ofSeconds a.idleTimeout) = some ping) :
    a.hubSettings =
      if a.idleTimeout = 0 then .error (.zero "idle timeout")
      else if a.capacity = 0 then .error (.zero "outbound capacity")
      else if a.capacity < 4 then .error (.capacityBelowBootstrap a.capacity 4)
      else if a.writeTimeout = 0 then .error (.zero "write timeout")
      else if a.maxFrame = 0 then .error (.zero "max frame size")
      else .ok ⟨.ofSeconds a.idleTimeout, ping, a.capacity, a.historyLimit,
        .ofSeconds a.writeTimeout, a.maxFrame⟩ := by
  unfold hubSettings
  rw [hnone]
  dsimp only
  rw [hdefault]
  simp only [HubSettings.validate, Duration.isZero_ofSeconds, decide_eq_true_eq]
  by_cases hidle : a.idleTimeout = 0
  · rw [if_pos hidle, if_pos hidle]
  · have hlength : nanosPerSecond ≤ (Duration.ofSeconds a.idleTimeout).toNanos := by
      rw [Duration.toNanos_ofSeconds]
      simp only [nanosPerSecond, UInt64.size]
      omega
    have hpositive : ¬ping.isZero = true := by
      rw [Bool.not_eq_true, HubSettings.isZero_defaultPing hdefault]
      exact Nat.le_trans (by decide) hlength
    have hbelow : ¬Duration.ofSeconds a.idleTimeout ≤ ping :=
      Nat.not_le.mpr ((HubSettings.defaultPing_lt_iff hdefault).mpr
        (Nat.lt_of_lt_of_le (by decide) hlength))
    rw [if_neg hidle, if_neg hidle, if_neg hpositive, if_neg hbelow]
    rfl

/-- Without a ping interval, a timeout whose ninefold overflows gives no settings. -/
theorem hubSettings_of_idleTooLong (hnone : a.pingInterval = none)
    (hlong : (2 ^ 64 - 1) / 9 < a.idleTimeout) : a.hubSettings = .error .idleTooLong := by
  unfold hubSettings
  rw [hnone]
  dsimp only
  rw [HubSettings.defaultPing_ofSeconds_eq_none_iff.mpr hlong]

/-- Whether arguments without a ping interval leave nothing to be desired. -/
def Sufficient (a : Arguments) : Prop :=
  1 ≤ a.idleTimeout ∧ 1 ≤ a.writeTimeout ∧ 1 ≤ a.maxFrame ∧ 4 ≤ a.capacity

/-- Such arguments are accepted; others are refused, and not over the ping interval. -/
theorem hubSettings_cases (hnone : a.pingInterval = none)
    (hdefault : HubSettings.defaultPing (.ofSeconds a.idleTimeout) = some ping) :
    (a.Sufficient ∧ a.hubSettings = .ok ⟨.ofSeconds a.idleTimeout, ping, a.capacity,
      a.historyLimit, .ofSeconds a.writeTimeout, a.maxFrame⟩) ∨
    (¬a.Sufficient ∧ ∃ e, a.hubSettings = .error e ∧ e ≠ .idleTooLong ∧
      e ≠ .zero "ping interval" ∧ ∀ ping idle, e ≠ .pingNotBelowIdle ping idle) := by
  unfold Sufficient
  rw [hubSettings_of_defaultPing hnone hdefault]
  split
  next h => exact Or.inr ⟨by omega, _, rfl, by simp, by simp, by simp⟩
  split
  next h => exact Or.inr ⟨by omega, _, rfl, by simp, by simp, by simp⟩
  split
  next h => exact Or.inr ⟨by omega, _, rfl, by simp, by simp, by simp⟩
  split
  next h => exact Or.inr ⟨by omega, _, rfl, by simp, by simp, by simp⟩
  split
  next h => exact Or.inr ⟨by omega, _, rfl, by simp, by simp, by simp⟩
  next => exact Or.inl ⟨by omega, rfl⟩

/-- No duration is above the longest one. Nine tenths of a duration are lacking exactly if nine
times the duration would be; otherwise they are exact, rounded down to nanoseconds, shorter than
the duration unless that is empty, and not empty themselves from two nanoseconds on. For all
arguments with numbers of 64 bits, and a command line gives no others, but without a ping
interval: the settings fail for want of it exactly from a certain idle timeout on. Up to there the
interval is never what is wrong with them. They are accepted exactly if the two timeouts and the
frame size are at least one and the capacity is at least four, and then they have the values of
the arguments. -/
theorem default_ping_is_usable :
    (∀ d : Duration, d ≤ Duration.longest ∧
      (HubSettings.defaultPing d = none ↔ Duration.longest.toNanos < 9 * d.toNanos) ∧
      ∀ ping, HubSettings.defaultPing d = some ping →
        ping.toNanos = 9 * d.toNanos / 10 ∧
        (ping < d ↔ Duration.ofSeconds 0 < d) ∧
        (ping.isZero = false ↔ 2 ≤ d.toNanos)) ∧
    (∀ args env a, parse args env = .ok a → a.Sized) ∧
    ∀ a : Arguments, a.Sized → a.pingInterval = none →
      (a.hubSettings = .error .idleTooLong ↔ (2 ^ 64 - 1) / 9 < a.idleTimeout) ∧
      (∀ e, a.hubSettings = .error e →
        e ≠ .zero "ping interval" ∧ ∀ ping idle, e ≠ .pingNotBelowIdle ping idle) ∧
      (a.idleTimeout ≤ (2 ^ 64 - 1) / 9 →
        ((∃ s, a.hubSettings = .ok s) ↔
          1 ≤ a.idleTimeout ∧ 1 ≤ a.writeTimeout ∧ 1 ≤ a.maxFrame ∧ 4 ≤ a.capacity)) ∧
      ∀ s, a.hubSettings = .ok s →
        s.idleTimeout.toNanos = a.idleTimeout * nanosPerSecond ∧
        s.pingInterval.toNanos = 9 * (a.idleTimeout * nanosPerSecond) / 10 ∧
        s.capacity = a.capacity ∧ s.historyLimit = a.historyLimit ∧
        s.writeTimeout.toNanos = a.writeTimeout * nanosPerSecond ∧ s.maxFrame = a.maxFrame := by
  refine ⟨fun d => ⟨d.le_longest, HubSettings.defaultPing_eq_none_iff, fun ping h =>
    ⟨HubSettings.toNanos_defaultPing h, HubSettings.defaultPing_lt_iff h,
      HubSettings.isZero_defaultPing h⟩⟩, fun args env a => sized_parse, fun a hsized hnone => ?_⟩
  cases hdefault : HubSettings.defaultPing (.ofSeconds a.idleTimeout) with
  | none =>
    have hlong := HubSettings.defaultPing_ofSeconds_eq_none_iff.mp hdefault
    rw [hubSettings_of_idleTooLong hnone hlong]
    refine ⟨iff_of_true rfl hlong, fun e he => ?_,
      fun hshort => absurd hlong (Nat.not_lt.mpr hshort), nofun⟩
    cases he
    exact ⟨by simp, by simp⟩
  | some ping =>
    have hshort : ¬(2 ^ 64 - 1) / 9 < a.idleTimeout := fun hlong => by
      rw [HubSettings.defaultPing_ofSeconds_eq_none_iff.mpr hlong] at hdefault
      cases hdefault
    rcases hubSettings_cases hnone hdefault with ⟨hsufficient, heq⟩ | ⟨hlacking, e, heq, hother⟩
    · rw [heq]
      refine ⟨iff_of_false nofun hshort, nofun, fun _ => iff_of_true ⟨_, rfl⟩ hsufficient,
        fun s hs => ?_⟩
      cases hs
      have hidle := Duration.toNanos_ofSeconds_of_lt hsized.idleTimeout
      refine ⟨hidle, ?_, rfl, rfl, Duration.toNanos_ofSeconds_of_lt hsized.writeTimeout, rfl⟩
      rw [HubSettings.toNanos_defaultPing hdefault, hidle]
    · rw [heq]
      refine ⟨iff_of_false (fun h => hother.1 (Except.error.inj h)) hshort, fun e' he => ?_,
        fun _ => iff_of_false nofun hlacking, nofun⟩
      cases he
      exact hother.2

/-- The longest idle timeout that leaves a ping interval, and no more of anything else than it
takes. -/
def barelySufficient : Arguments :=
  ⟨"127.0.0.1", 8080, "x", none, [], "info", 2049638230412172401, none, 4, 0, 1, 1⟩

/-- The shortest time there is. -/
def nanosecond : Duration := ⟨0, 1, by decide, by decide⟩

/-- A timeout of one nanosecond, whose default interval is zero, and the last timeout in seconds
that has a default interval, and the first that has none. -/
theorem default_ping_is_usable_barely :
    (∃ ping, HubSettings.defaultPing nanosecond = some ping ∧ ping.toNanos = 0 ∧
      ping < nanosecond ∧ ping.isZero = true) ∧
    barelySufficient.Sized ∧ barelySufficient.pingInterval = none ∧
    (∃ s, barelySufficient.hubSettings = .ok s ∧
      s.pingInterval.toNanos = 1844674407370955160900000000 ∧
      s.writeTimeout.toNanos = 1000000000) ∧
    { barelySufficient with idleTimeout := 2049638230412172402 }.hubSettings
      = .error .idleTooLong := by
  obtain ⟨hdurations, -, harguments⟩ := default_ping_is_usable
  have hsized : barelySufficient.Sized :=
    ⟨by decide, nofun, by decide, by decide, by decide, by decide⟩
  have hsized' : { barelySufficient with idleTimeout := 2049638230412172402 }.Sized :=
    ⟨by decide, nofun, by decide, by decide, by decide, by decide⟩
  refine ⟨?_, hsized, rfl, ?_, ((harguments _ hsized' rfl).1).mpr (by decide)⟩
  · obtain ⟨-, hlacking, hexact⟩ := hdurations nanosecond
    cases hping : HubSettings.defaultPing nanosecond with
    | none => exact absurd (hlacking.mp hping) (by decide)
    | some ping =>
      obtain ⟨hnanos, hbelow, hzero⟩ := hexact ping hping
      refine ⟨ping, rfl, hnanos, hbelow.mpr (by decide), ?_⟩
      rw [← Bool.not_eq_false, hzero]
      decide
  · obtain ⟨-, -, haccepted, hvalues⟩ := harguments _ hsized rfl
    obtain ⟨s, hs⟩ := (haccepted (by decide)).mpr (by decide)
    obtain ⟨-, hping, -, -, hwrite, -⟩ := hvalues s hs
    exact ⟨s, hs, hping, hwrite⟩

end Arguments

end RoomHub
