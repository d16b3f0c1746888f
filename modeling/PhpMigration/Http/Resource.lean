/-
The resources of the service, and the paths that lead to them.

Every resource takes one method, and tells which one when it is asked; where it can be got, its
head can be got too.  A path leads to at most one resource.  Where a path leads nowhere but would
with fewer slashes, the client is sent there.
-/
import PhpMigration.Http.Target

namespace PhpMigration.Http

/-- A resource. -/
inductive Resource where
  | health
  /-- The conversion of a whole project. -/
  | conversion
  | status (project : String)
  | stop (project : String)
  | analysis
  | files (project : String)
  | file (project path : String)
  | report (project : String)
  /-- The conversion of a single text. -/
  | snippet
  /-- A file beside the service itself; there are none. -/
  | asset (path : String)
  deriving DecidableEq, Repr, Inhabited

namespace Resource

/-- The resource can be got; any other is posted to. -/
def isGot : Resource → Bool
  | .health | .status _ | .files _ | .file _ _ | .report _ | .asset _ => true
  | .conversion | .stop _ | .analysis | .snippet => false

/-- The methods that a resource takes. -/
def methods (r : Resource) : List String :=
  if r.isGot then ["GET", "HEAD", "OPTIONS"] else ["POST", "OPTIONS"]

/-- The path of a file in some segments: it is not empty, does not begin with a slash, and only
its first character may be a line feed. -/
def filePath? (segments : List String) : Option String :=
  let path := "/".intercalate segments
  match path.toList with
  | [] => none
  | first :: rest => if first = '/' || rest.contains '\n' then none else some path

/-- The resource that some segments lead to.  The name of a project is not empty. -/
def ofSegments? : List String → Option Resource
  | ["api", "health"] => some .health
  | ["api", "convert", "all"] => some .conversion
  | ["api", "convert", "status", project] =>
    if project.isEmpty then none else some (.status project)
  | ["api", "convert", "stop", project] => if project.isEmpty then none else some (.stop project)
  | ["api", "analyze"] => some .analysis
  | ["api", "review", "files", project] => if project.isEmpty then none else some (.files project)
  | "api" :: "review" :: "file" :: project :: rest =>
    if project.isEmpty then none else (filePath? rest).map (.file project)
  | ["api", "review", "report", project] => if project.isEmpty then none else some (.report project)
  | ["api", "convert"] => some .snippet
  | "static" :: rest => (filePath? rest).map .asset
  | _ => none

end Resource

/-- What a target and a method lead to. -/
inductive Route where
  | resource (resource : Resource)
  /-- The resource does not take the method. -/
  | refused (resource : Resource)
  /-- The path has too many slashes. -/
  | elsewhere
  | nowhere
  deriving DecidableEq, Repr

/-- The route of a method, in capitals, and a target. -/
def Route.of (method target : String) : Route :=
  let path := pathOf target
  match Resource.ofSegments? (segments path) with
  | some r => if r.methods.contains method then .resource r else .refused r
  | none =>
    match Resource.ofSegments? (segments (mergeSlashes path)) with
    | some r => if r.methods.contains method then .elsewhere else .refused r
    | none => .nowhere

end PhpMigration.Http
