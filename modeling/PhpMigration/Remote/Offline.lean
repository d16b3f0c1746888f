/-
A world without models.

No endpoint answers and no service is set up by hand, so every model that is asked fails as one
that cannot be connected to, and whoever asked is left to do without.
-/
import PhpMigration.Remote.Delegate

namespace PhpMigration.Delegate

/-- What is said of an endpoint that does not answer. -/
def noConnection : Incident := .refusal ⟨.connection, "Connection error.", []⟩

/-- The world in which nothing can be reached, and no time passes. -/
def offline : Outside Unit where
  clock _ := 0
  connect _ _ := ()
  listModels _ _ := (.error noConnection, ())
  create _ _ _ := (.error noConnection, ())
  check _ _ _ := (.ok false, ())
  ask _ _ _ _ _ := (.error noConnection, ())

/-- The breakers and the router of a document in that world. -/
def Station.offline (models : Value) (env : Environment) : Except Misfit (Station Unit) := do
  let routes ← Routes.ofDocument models env
  pure { breakers := [], router := { routes, lines := { world := () } } }

end PhpMigration.Delegate
