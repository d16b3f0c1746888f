/-
A circuit breaker before a remote service.

While the circuit is closed every call is let through, and enough failures in a row open it.  An
open circuit refuses all calls until the recovery time has passed since it opened; then it is
half open and lets a limited number of trial calls through.  When that many have succeeded it
closes, and a single failure opens it again.

A breaker does not know which call an outcome belongs to: an outcome counts for the state in
which it is reported.

The limits are numbers.  A configuration may give anything in their place, which is noticed only
when a count or a time is held against it; what has been counted until then stays counted.
-/
import PhpMigration.Document.Need

namespace PhpMigration

/-- The state of a circuit. -/
inductive Circuit where
  | closed
  | opened
  | halfOpen
  deriving DecidableEq, Repr, Inhabited

/-- The word for a state. -/
def Circuit.name : Circuit → String
  | .closed => "closed"
  | .opened => "open"
  | .halfOpen => "half_open"

/-- The limits of a breaker. -/
structure BreakerSettings where
  /-- The failures in a row that open a closed circuit. -/
  failureThreshold : Value := .int 5
  /-- The seconds that an open circuit refuses all calls. -/
  recoveryTimeout : Value := .int 30
  /-- The trial calls let through while the circuit is half open, all of which must succeed. -/
  maxTrials : Value := .int 1
  deriving DecidableEq, Repr, Inhabited

namespace BreakerSettings

/-- The names of the limits. -/
def parameters : List String :=
  ["failure_threshold", "recovery_timeout_seconds", "half_open_max_calls"]

/-- The settings that a table gives, and the usual ones where it does not speak of them. -/
def ofTable (t : Table Value) : BreakerSettings :=
  let usual : BreakerSettings := {}
  { failureThreshold := (t.find? "failure_threshold").getD usual.failureThreshold
    recoveryTimeout := (t.find? "recovery_timeout_seconds").getD usual.recoveryTimeout
    maxTrials := (t.find? "half_open_max_calls").getD usual.maxTrials }

/-- The settings for a service: those of the configuration's default block, then those of the
service's own block. -/
def ofConfig (config : Value) (service : String) : Except Misfit BreakerSettings := do
  let nothing := Value.object []
  let t ← Value.needUpdate [] (← config.needMember "default" nothing)
  let services := (← config.needMember "services" nothing).orElse nothing
  return ofTable (← Value.needUpdate t (← services.needMember service nothing))

end BreakerSettings

/-- A breaker. -/
structure Breaker where
  settings : BreakerSettings
  circuit : Circuit := .closed
  /-- The failures since the last success or closing. -/
  failures : Nat := 0
  /-- The trial calls let through in this half-open period. -/
  trials : Nat := 0
  /-- The trial calls that have succeeded in this half-open period. -/
  successes : Nat := 0
  /-- The moment at which the circuit opened. -/
  openedAt : Numeral := 0
  deriving DecidableEq, Repr, Inhabited

namespace Breaker

/-- A count has come up to a limit. -/
def reached (limit : Value) (count : Nat) : Except Misfit Bool := do
  return (← limit.needNumeral).le (.int count)

/-- A count is still below a limit. -/
def below (limit : Value) (count : Nat) : Except Misfit Bool := do
  return (Numeral.int count).lt (← limit.needNumeral)

/-- The recovery time has passed since the circuit opened. -/
def recovered (b : Breaker) (now : Numeral) : Except Misfit Bool := do
  return !(now.sub b.openedAt).lt (← b.settings.recoveryTimeout.needNumeral)

/-- A trial call is let through as long as there are fewer than allowed. -/
def admitTrial (b : Breaker) : Except Misfit Bool × Breaker :=
  match reached b.settings.maxTrials b.trials with
  | .error m => (.error m, b)
  | .ok true => (.ok false, b)
  | .ok false => (.ok true, { b with trials := b.trials + 1 })

/-- Whether a call is let through now. -/
def allow (now : Numeral) (b : Breaker) : Except Misfit Bool × Breaker :=
  match b.circuit with
  | .closed => (.ok true, b)
  | .halfOpen => b.admitTrial
  | .opened =>
    match b.recovered now with
    | .error m => (.error m, b)
    | .ok true => admitTrial { b with circuit := .halfOpen, trials := 0, successes := 0 }
    | .ok false => (.ok false, b)

/-- A call has succeeded. -/
def succeed (b : Breaker) : Except Misfit Unit × Breaker :=
  match b.circuit with
  | .halfOpen =>
    let b := { b with successes := b.successes + 1 }
    match below b.settings.maxTrials b.successes with
    | .error m => (.error m, b)
    | .ok true => (.ok (), b)
    | .ok false => (.ok (), { b with circuit := .closed, failures := 0 })
  | _ => (.ok (), { b with failures := 0 })

/-- A call has failed. -/
def fail (now : Numeral) (b : Breaker) : Except Misfit Unit × Breaker :=
  let b := { b with failures := b.failures + 1 }
  match b.circuit with
  | .halfOpen => (.ok (), { b with circuit := .opened, openedAt := now })
  | .closed =>
    match reached b.settings.failureThreshold b.failures with
    | .error m => (.error m, b)
    | .ok true => (.ok (), { b with circuit := .opened, openedAt := now })
    | .ok false => (.ok (), b)
  | .opened => (.ok (), b)

/-- What is reported of a service's breaker. -/
def toDocument (service : String) (b : Breaker) : Value :=
  .object [("service", .text service), ("state", .text b.circuit.name),
    ("failure_count", .int b.failures),
    ("failure_threshold", b.settings.failureThreshold),
    ("recovery_timeout_seconds", b.settings.recoveryTimeout)]

end Breaker

/-- The breakers of all services that have been asked for. -/
abbrev BreakerRegistry := Table Breaker

/-- The breaker of a service, which is set up when it is first asked for. -/
def BreakerRegistry.get (config : Value) (service : String) (r : BreakerRegistry) :
    Except Misfit (Breaker × BreakerRegistry) := do
  match Table.find? r service with
  | some b => return (b, r)
  | none =>
    let b : Breaker := { settings := ← BreakerSettings.ofConfig config service }
    return (b, Table.set service b r)

/-- What is reported of all breakers. -/
def BreakerRegistry.toDocument (r : BreakerRegistry) : Value :=
  .object (r.map fun (service, b) => (service, b.toDocument service))

end PhpMigration
