/-
What can be said of a project before it is converted.

The files that can be read are classified as they will be when they are converted; the way users
are known and the data base that is spoken to are recognised by signatures anywhere in the
project, the first of which wins.  The purpose is guessed from the paths, and how hard the work
is from the number of lines.
-/
import PhpMigration.Document.Json
import PhpMigration.Incident
import PhpMigration.Project.Discovery
import PhpMigration.Project.Outline
import PhpMigration.Role
import PhpMigration.Text.Letter
import PhpMigration.Text.Lines

namespace PhpMigration

/-! ### Signatures -/

/-- A piece of a text that tells something about a project. -/
structure Mark where
  text : String
  /-- The piece begins a word. -/
  beginsWord : Bool := false
  /-- The piece ends a word. -/
  endsWord : Bool := false
  deriving DecidableEq, Repr

/-- The mark stands at the head of a text, behind the given character. -/
def Mark.heads (m : Mark) (before : Option Char) (cs : List Char) : Bool :=
  m.text.toList.isPrefixOf cs && !(m.beginsWord && before.any Text.isWord) &&
    !(m.endsWord && (cs.drop m.text.length).head?.any Text.isWord)

/-- The mark stands somewhere in a text, which follows the given character. -/
def Mark.occursBehind (m : Mark) (before : Option Char) : List Char → Bool
  | [] => m.heads before []
  | c :: rest => m.heads before (c :: rest) || m.occursBehind (some c) rest

/-- The mark stands somewhere in a text. -/
def Mark.occursIn (m : Mark) (text : String) : Bool := m.occursBehind none text.toList

/-- What tells how users are known, in the order in which it is asked. -/
def authMarks : List (String × List Mark) :=
  [("laravel", [⟨"Auth::", false, false⟩, ⟨"auth()->", false, false⟩]),
    ("session", [⟨"session_start()", false, false⟩])]

/-- What tells which data base is spoken to, in the order in which it is asked. -/
def databaseMarks : List (String × List Mark) :=
  [("mysql", [⟨"DB::", false, false⟩, ⟨"Eloquent", false, false⟩]),
    ("pdo", [⟨"PDO", true, true⟩]),
    ("mysqli", [⟨"mysqli", true, false⟩])]

/-- The first word of which a mark stands in one of the texts. -/
def firstMarked (marks : List (String × List Mark)) (default : String) (texts : List String) :
    String :=
  ((marks.find? fun entry => texts.any fun text => entry.2.any fun m => m.occursIn text).map
    (·.1)).getD default

/-! ### Purpose and complexity -/

/-- The words in paths that tell a purpose, in the order in which they are asked. -/
def purposeWords : List (String × String) :=
  [("api", "API Service"), ("admin", "Admin Panel"), ("auth", "Authentication System")]

/-- The purpose of a project, guessed from the paths of its files. -/
def guessPurpose (paths : List String) : String :=
  let lowered := paths.map Text.lower
  ((purposeWords.find? fun entry => lowered.any fun path => Text.contains path entry.1).map
    (·.2)).getD "Unknown"

/-- The bounds above which a project is rated, largest first. -/
def complexityLevels : List (Int × String) := [(10000, "high"), (5000, "medium")]

/-- How hard a project of so many lines is. -/
def rateComplexity (lines : Numeral) : String :=
  ((complexityLevels.find? fun level => (Numeral.int level.1).lt lines).map (·.2)).getD "low"

/-! ### The analysis -/

/-- What is said of a project. -/
structure Analysis where
  /-- The files that can be read, with their roles, in the order in which they are found. -/
  classified : List (String × Role)
  authType : String
  database : String
  purpose : String
  dependencies : List String
  complexity : String
  files : Nat
  lines : Nat
  outline : List OutlineNode
  deriving Repr

namespace Analysis

/-- The text of a file as it is analysed. -/
def textOf (t : FileTree) (path : List String) : Option String :=
  match t.read path with
  | .ok bytes => (Text.Utf8.decode bytes).toOption.map Text.withLineFeeds
  | .error _ => none

/-- The packages that a project says it needs, in the order of their names. -/
def dependenciesOf (t : FileTree) (folder : List String) : Except StorageFault (List String) := do
  let path := folder ++ ["composer.json"]
  let document := if ← t.leadsToFile path then (textOf t path).bind Json.read? else none
  return (Table.sorted ((document.getD .null).member "require").members).names

/-- The analysis of the source files of a project. -/
def ofProject (s : Settings) (folder : List String) (t : FileTree) : Except Incident Analysis := do
  let skipped ← s.skipped.mapError .settings
  let sources ← (Discovery.sources s folder t).mapError .settings
  let paths := sources.map Path.join
  let texts := sources.filterMap fun path =>
    (textOf t (folder ++ path)).map fun text => (Path.join path, text)
  let contents := texts.map (·.2)
  let lines := contents.foldl (fun n text => n + Text.countLines text) 0
  return {
    classified := texts.map fun (path, text) => (path, Role.classify text path)
    authType := firstMarked authMarks "none" contents
    database := firstMarked databaseMarks "unknown" contents
    purpose := guessPurpose paths
    dependencies := ← (dependenciesOf t folder).mapError .storage
    complexity := rateComplexity (.int lines)
    files := paths.length
    lines
    outline := Outline.ofFolder skipped folder t }

/-- The files of a role. -/
def filesOf (a : Analysis) (role : Role) : List String :=
  (a.classified.filter fun entry => entry.2 = role).map (·.1)

/-- The analysis as reports show it. -/
def toDocument (a : Analysis) : Table Value :=
  let texts := fun (names : List String) => Value.list (names.map .text)
  [("structure", .object [
      ("routes", texts (a.filesOf .route)),
      ("controllers", texts (a.filesOf .controller)),
      ("models", texts (a.filesOf .model)),
      ("authType", .text a.authType),
      ("database", .text a.database)]),
    ("summary", .object [
      ("purpose", .text a.purpose),
      ("dependencies", texts a.dependencies),
      ("complexity", .text a.complexity),
      ("phpFiles", .int a.files),
      ("totalLines", .int a.lines)]),
    ("fileTree", .list (OutlineNode.toDocuments a.outline))]

end Analysis

end PhpMigration
