/-
Looking at a project.

The converted files are those in the folders of the skeleton that hold code.  A file is read by
its path from the folder of the project or from the root, and only if the path leads strictly below
that folder: what lies outside is refused, whether it is there or not.
-/
import PhpMigration.Project.Analysis
import PhpMigration.Project.Run

namespace PhpMigration.Review

variable {σ : Type}

/-- The analysis of a project. -/
def analysis (c : Converter σ) (project : String) (w : Workshop σ) : Except Incident Analysis := do
  Converter.needFolder project w
  Analysis.ofProject c.settings (Workshop.folderOf project) w.tree

/-- The suffixes of files that hold code. -/
def codeSuffixes : List String := [".ts", ".js"]

/-- The code files of one folder of the output, by their paths from the output, in the order of
the paths. -/
def codeIn (t : FileTree) (output : List String) (folder : String) : List (List String) :=
  let found := (Discovery.files [] (output ++ [folder]) t).map fun path => folder :: path
  (found.filter fun path =>
    codeSuffixes.contains (Path.suffix (path.getLastD "")) && t.isFile (output ++ path)).mergeSort
      fun a b => !b.lex a fun x y => decide (x < y)

/-- The converted files of a project, by their paths from its output. -/
def convertedFiles (c : Converter σ) (project : String) (w : Workshop σ) :
    Except Incident (List (List String)) := do
  let output ← c.outputFolder project
  if ← (w.tree.leadsToFolder output).mapError .storage then
    return Skeleton.folders.flatMap (codeIn w.tree output)
  else throw (.failure (.project ("No converted files for project " ++ project) project))

/-- A converted file as reports show it. -/
def entry (outputName : String) (path : List String) : Value :=
  let name := Path.join path
  .object [("name", .text name), ("path", .text (outputName ++ "/" ++ name))]

/-- The converted files of a project as reports show them. -/
def entries (c : Converter σ) (project : String) (w : Workshop σ) :
    Except Incident (List Value) := do
  let paths ← convertedFiles c project w
  return paths.map (entry (← c.settings.outputName.mapError .settings))

/-- Why a file is not shown. -/
inductive Refused where
  /-- The path leads out of the project. -/
  | outside (path : String)
  /-- The path is no path at all. -/
  | unnameable
  /-- The path leads to a link that leads back to itself. -/
  | circle (path : String)
  | missing (path : String)
  | storage (fault : StorageFault)
  deriving DecidableEq, Repr

/-- The wording of a refusal. -/
def Refused.message : Refused → String
  | .outside path => "Path outside the project directory: " ++ path
  | .unnameable => StorageProblem.unnameable.message
  | .circle path => "Symlink loop from " ++ Text.cite path
  | .missing path => path
  | .storage fault => fault.message

/-- The place that a path from the root leads to.  Behind a circle of links two dots take the name
before them away, which may lead out of it again. -/
def placeOf (t : FileTree) (path : List String) : Except Refused (List String) :=
  match t.placeOf path with
  | .at place => pure place
  | .circle place =>
    let place := Path.withoutDots [] place
    match t.inside? place with
    | none => pure place
    | some inner =>
      match t.spot inner with
      | .problem .looping => throw (.circle (t.shown inner))
      | _ => pure place

/-- The place that a path leads to from a folder. -/
def seenFrom (t : FileTree) (folder : List String) (path : String) :
    Except Refused (List String) := do
  if path.toList.contains '\x00' then throw .unnameable
  placeOf t (if Path.isAbsolute path then Path.parts path else folder ++ Path.parts path)

/-- The place strictly below the folder of a project that a path leads to.  The path is seen from
that folder, unless it is seen from the root. -/
def place? (w : Workshop σ) (project path : String) : Except Refused (List String) := do
  let top ← seenFrom w.tree w.tree.location project
  let place ← seenFrom w.tree top path
  if top.isPrefixOf place && decide (top.length < place.length) then pure place
  else throw (.outside path)

/-- The text of the file that a path of the tree leads to; bytes that are no text are replaced. -/
def textAt (t : FileTree) (path : String) (inside : List String) : Except Refused String := do
  if ← (t.leadsToFile inside).mapError .storage then
    let content ← (t.read inside).mapError .storage
    pure (Text.withLineFeeds (Text.Utf8.decodeLenient content))
  else throw (.missing path)

/-- The text of a file of a project. -/
def read (project path : String) (w : Workshop σ) : Except Refused String := do
  match w.tree.inside? (← place? w project path) with
  | some inside => textAt w.tree path inside
  | none => throw (.missing path)

end PhpMigration.Review
