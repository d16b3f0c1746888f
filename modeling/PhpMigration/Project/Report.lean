/-
The report on a conversion: what was written where, what failed, and how far it came.
-/
import PhpMigration.Project.Run

namespace PhpMigration

/-- A report. -/
structure Report where
  project : String
  record : Record
  /-- The mappings in the order of the source paths. -/
  mappings : List Mapping
  /-- The lines of all files that were written and are still there. -/
  lines : Nat

namespace Report

variable {σ : Type}

/-- The lines of a written file; a file that is not there has none. -/
def linesOf (t : FileTree) (path : List String) : Except Incident Nat := do
  if ← (t.leadsToFile path).mapError .storage then
    let bytes ← (t.read path).mapError .storage
    let text ← (Text.Utf8.decode bytes).mapError .undecodable
    pure (Text.countLines (Text.withLineFeeds text))
  else pure 0

/-- The report on the last conversion of a project. -/
def ofProject (c : Converter σ) (project : String) (w : Workshop σ) : Except Incident Report := do
  Converter.needFolder project w
  let mappings := (w.mappingsOf project).mergeSort fun a b => decide (a.source ≤ b.source)
  let output ← c.outputFolder project
  let counts ← mappings.mapM fun m => linesOf w.tree (output ++ Path.parts m.target)
  pure { project, record := w.record project, mappings, lines := counts.foldl (· + ·) 0 }

/-- The mappings of a role. -/
def ofRole (r : Report) (role : Role) : List Mapping := r.mappings.filter fun m => m.role = role

/-- A mapping in a list of its role. -/
def entry (m : Mapping) : Value :=
  .object [("originalPath", .text m.source), ("newPath", .text m.target)]

/-- The report as it is shown. -/
def toDocument (r : Report) : Except Misfit (Table Value) := do
  let record ← r.record.report
  let failures ← r.record.failures
  return [
    ("projectId", .text r.project),
    ("status", record),
    ("stats", .object [
      ("filesConverted", .int r.mappings.length),
      ("filesFailed", .int failures.length),
      ("linesOfCode", .int r.lines),
      ("routesCreated", .int (r.ofRole .route).length),
      ("modelsCreated", .int (r.ofRole .model).length)]),
    ("files",
      .object (Role.priority.map fun role => (role.name, .list ((r.ofRole role).map entry)))),
    ("failedFiles", .list failures)]

end Report

end PhpMigration
