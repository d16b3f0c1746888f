/-
The skeleton of a converted project: its folders, and the files that it begins with.

Whatever is there already is left alone, so laying a skeleton twice is laying it once, and edits
of the user survive.  If a folder or file cannot be made, what has been made before stays.
-/
import PhpMigration.Project.Boilerplate
import PhpMigration.Project.FileTree

namespace PhpMigration.Skeleton

/-- The folders of a converted project. -/
def folders : List String :=
  ["controllers", "models", "routes", "middlewares", "config", "utils", "types", "services"]

/-- What has become of the files of a skeleton. -/
structure Report where
  written : List String := []
  kept : List String := []
  deriving DecidableEq, Repr, Inhabited

/-- Make folders below a path. -/
def makeFolders (path : List String) : List String → FileTree → Except StorageFault Unit × FileTree
  | [], t => (.ok (), t)
  | name :: rest, t =>
    match t.makeFolders (path ++ [name]) with
    | (.ok (), t) => makeFolders path rest t
    | (.error fault, t) => (.error fault, t)

/-- A file written into a folder that is made for it. -/
def writeFile (path : List String) (content : String) (t : FileTree) :
    Except StorageFault Unit × FileTree :=
  match t.makeFolders path.dropLast with
  | (.error fault, t) => (.error fault, t)
  | (.ok (), t) =>
    match t.write path (Text.Utf8.encode content) with
    | .ok t => (.ok (), t)
    | .error fault => (.error fault, t)

/-- Write the files that are not there. -/
def writeFiles (path : List String) : List (String × String) → Report → FileTree →
    Except StorageFault Report × FileTree
  | [], report, t => (.ok report, t)
  | (name, content) :: rest, report, t =>
    let target := path ++ Path.parts name
    match t.leadsToEntry target with
    | .error fault => (.error fault, t)
    | .ok true => writeFiles path rest { report with kept := report.kept ++ [name] } t
    | .ok false =>
      match writeFile target content t with
      | (.ok (), t) => writeFiles path rest { report with written := report.written ++ [name] } t
      | (.error fault, t) => (.error fault, t)

/-- Lay the skeleton of a project at a path. -/
def lay (path : List String) (projectName : String) (t : FileTree) :
    Except StorageFault Report × FileTree :=
  match makeFolders path folders t with
  | (.ok (), t) => writeFiles path (Boilerplate.files projectName) {} t
  | (.error fault, t) => (.error fault, t)

/-- The name of a project that has no other. -/
def defaultName : String := "converted-nodejs-app"

/-- The report as it is shown. -/
def Report.toDocument (shownPath : String) (r : Report) : Value :=
  let texts := fun (names : List String) => Value.list (names.map .text)
  .object [("project_path", .text shownPath), ("folders", texts folders),
    ("files_written", texts r.written), ("files_skipped", texts r.kept)]

end PhpMigration.Skeleton
