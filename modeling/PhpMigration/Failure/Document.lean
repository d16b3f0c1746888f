/-
Failures as documents.

A failure is made from values that are given in order, by name, or partly so; the message must be
among them, and no value may be given twice.  What a kind of failure says besides its message is
shown under the name by which it can be given.
-/
import PhpMigration.Failure

namespace PhpMigration

/-- What a failure of a kind can be given, in order. -/
def FailureKind.parameters : FailureKind → List String
  | .unavailable => ["message", "service"]
  | .rateLimited => ["message", "service", "retry_after"]
  | .configuration => ["message", "config_key"]
  | .parse => ["message", "file_name", "line"]
  | .project | .inProgress => ["message", "project_id"]
  | _ => ["message", "service", "retryable"]

/-- The members of a detail. -/
def FailureDetail.members : FailureDetail → Table Value
  | .none => []
  | .retryAfter seconds => [("retry_after", seconds)]
  | .configKey key => [("config_key", key)]
  | .source fileName line => [("file_name", fileName), ("line", line)]
  | .project id => [("project_id", id)]

/-- The detail of the same kind with the values that a table gives. -/
def FailureDetail.ofTable (t : Table Value) : FailureDetail → FailureDetail
  | .none => .none
  | .retryAfter seconds => .retryAfter ((Table.find? t "retry_after").getD seconds)
  | .configKey key => .configKey ((Table.find? t "config_key").getD key)
  | .source fileName line =>
    .source ((Table.find? t "file_name").getD fileName) ((Table.find? t "line").getD line)
  | .project id => .project ((Table.find? t "project_id").getD id)

namespace Failure

/-- Values by name, those given in order first; nothing if they do not fit the names. -/
def bind? (names : List String) (inOrder : List Value) (named : Table Value) :
    Option (Table Value) :=
  let first := names.zip inOrder
  if names.length < inOrder.length ||
      named.any (fun (name, _) => !names.contains name || Table.has first name) ||
      !Table.has (first ++ named) "message" then none
  else some (first ++ named)

/-- The failure of a kind that some values make, if they fit. -/
def ofArguments? (kind : FailureKind) (inOrder : List Value) (named : Table Value) :
    Option Failure :=
  (bind? kind.parameters inOrder named).map fun t =>
    let value := fun name default => (Table.find? t name).getD default
    let f := ofValues kind (value "message" .null) (value "service" (.text kind.component))
    { f with retryable := value "retryable" f.retryable, detail := f.detail.ofTable t }

end Failure

end PhpMigration
