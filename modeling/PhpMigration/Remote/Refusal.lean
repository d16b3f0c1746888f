/-
Refusals of a remote model service, as its client reports them, and what they mean for a
conversion.

A service that asks to be called less often may say in a header how many seconds to wait.
Rejected credentials stay rejected; everything else may pass.  A wait without end cannot be
counted in seconds, so such a refusal has no meaning for a conversion.
-/
import PhpMigration.Failure
import PhpMigration.Number.Numeral
import PhpMigration.Table

namespace PhpMigration

/-- Why a remote model service gave no answer. -/
inductive RefusalKind where
  | rateLimit
  | authentication
  | permission
  | badRequest
  | notFound
  | conflict
  | unprocessable
  | internal
  | connection
  | timeout
  | other
  deriving DecidableEq, Repr, Inhabited

/-- A refusal, with the headers of the answer if there was one. -/
structure Refusal where
  kind : RefusalKind
  text : String
  headers : Table String
  deriving DecidableEq, Repr, Inhabited

namespace Refusal

/-- What a call that took too long always says. -/
def timeoutMessage : String := "Request timed out."

/-- The wording of a refusal. -/
def message (r : Refusal) : String := if r.kind = .timeout then timeoutMessage else r.text

/-- The seconds to wait that the headers name, toward zero; zero if they name none, and nothing
at all if the wait has no end. -/
def retryAfter? (r : Refusal) : Option Int :=
  match (r.headers.find? "retry-after").bind Double.ofText? with
  | none | some .nan => some 0
  | some seconds => seconds.truncate?

/-- What a refusal means for a conversion, if anything. -/
def toFailure? (r : Refusal) (service : String) : Option Failure :=
  match r.kind with
  | .rateLimit => r.retryAfter?.map fun seconds =>
      .rateLimited ("Rate limit exceeded: " ++ r.message) service seconds
  | .authentication | .permission =>
    some (.ofService .delegateAuth ("Unauthorized: " ++ r.message) service)
  | .badRequest => some (.ofService .delegate ("Malformed request: " ++ r.message) service)
  | .connection | .timeout =>
    some (.ofService .delegate ("Transport failure: " ++ r.message) service)
  | _ => some (.ofService .delegate ("Delegate call failed: " ++ r.message) service)

end Refusal

end PhpMigration
