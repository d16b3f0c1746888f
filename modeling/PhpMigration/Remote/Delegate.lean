/-
Asking a remote model to convert, behind a circuit breaker.

A call that the breaker refuses is never made.  A call that is made has one outcome, which the
breaker is told: a success if there is text in the reply, and a failure otherwise.  Every failure
of the service is turned into one of the known kinds, so that whoever asks can treat them alike;
only a wait without end is passed on as it is, and so is the order to end the whole program, of
which the breaker is not told either.
-/
import PhpMigration.Remote.Breaker
import PhpMigration.Remote.Instructions
import PhpMigration.Remote.Router

namespace PhpMigration.Delegate

/-- The name of the service. -/
def serviceName : String := "conversion_delegate"

/-- The failure that an incident on the way to a model means, if it means one. -/
def classify (service : String) : Incident → Except Incident Failure
  | .refusal r =>
    match r.toFailure? service with
    | some f => pure f
    | none => throw .endlessWait
  | incident => pure (.ofService .delegate ("Delegate call failed: " ++ incident.text) service)

/-- What is said of a reply without text. -/
def emptyMessage : String := "Empty response from conversion service"

/-- What whoever asked is told of an incident; a failure of a known kind stays as it is. -/
def report : Incident → Incident
  | .failure f => .failure f
  | incident =>
    if incident.isInterruption then incident
    else match classify serviceName incident with
    | .ok f => .failure f
    | .error incident => incident

/-- The text of a reply, or why there is none. -/
def settle : Except Incident (Option String) → Except Incident String
  | .error incident => .error (report incident)
  | .ok content =>
    let text := Text.strip (content.getD "")
    if text.isEmpty then .error (.failure (.ofService .delegate emptyMessage serviceName))
    else .ok text

/-- The breaker is told the outcome of a call. -/
def record (now : Numeral) (b : Breaker) : Except Incident String → Except Misfit Unit × Breaker
  | .ok _ => b.succeed
  | .error incident => if incident.isInterruption then (.ok (), b) else b.fail now

variable {ω : Type}

/-- Ask the model, unless the breaker refuses.  Time may pass in the world outside until the model
has answered. -/
def complete (ask : Chat.Request → Effect ω (Option String)) (clock : ω → Numeral)
    (instructions prompt : String) (b : Breaker) (w : ω) : Except Incident String × Breaker × ω :=
  match b.allow (clock w) with
  | (.error misfit, b) => (.error (.misfit misfit), b, w)
  | (.ok false, b) => (.error (.failure (.unavailable serviceName)), b, w)
  | (.ok true, b) =>
    let (reply, w) := ask (.ofPrompt instructions prompt) w
    let result := settle reply
    let (told, b) := record (clock w) b result
    (told.mapError .misfit >>= fun _ => result, b, w)

/-- The purpose for which models are asked. -/
def purpose : String := "php_conversion"

/-- The breakers and the router behind a service. -/
structure Station (ω : Type) where
  breakers : BreakerRegistry
  router : Router ω

/-- The service that asks the model a router chooses, behind the breaker of a registry. -/
def service (breakerSettings : Value) (instructions : String) (outside : Outside ω) :
    String → Effect (Station ω) String := fun prompt s =>
  let ask := fun request router =>
    let (reply, router) := Router.ask outside purpose request router
    (reply.map Chat.Reply.content, router)
  match s.breakers.get breakerSettings serviceName with
  | .error misfit => (.error (.misfit misfit), s)
  | .ok (b, breakers) =>
    let (result, b, router) :=
      complete ask (fun r => outside.clock r.lines.world) instructions prompt b s.router
    (result, { breakers := Table.set serviceName b breakers, router })

end PhpMigration.Delegate
