/-
Converting one project by a call of the program.

The program converts the project and prints the report, as lines or as a document.  Why a project
cannot be converted at all is said on the channel for errors; any other incident breaks the program
off.
-/
import PhpMigration.CommandLine.Arguments
import PhpMigration.Document.JsonText
import PhpMigration.Project.Report

namespace PhpMigration.CommandLine

/-- What a call leaves behind. -/
structure Ending where
  code : Nat
  output : String := ""
  errors : String := ""
  deriving DecidableEq, Repr, Inhabited

/-- How the program is called. -/
def usage : String :=
  "usage: --project-id NAME [--upload-dir FOLDER] [--no-ai] [--chunk-size N] [--max-retries N] [--json]\n"

/-- The words made no call. -/
def Ending.refused : Ending := ⟨2, "", usage⟩

/-- The user has asked how the program is called. -/
def Ending.help : Ending := ⟨0, usage, ""⟩

/-- The lines on the files that were converted. -/
def mappingLines (r : Report) : List String :=
  Role.priority.flatMap fun role =>
    (r.ofRole role).map fun m => s!"  [{role.name}] {m.source} -> {m.target}"

/-- The lines on the files that were not. -/
def failureLines (r : Report) : List String :=
  r.record.failed.items.map fun f =>
    "  [failed] " ++ (f.member "file").shown ++ ": " ++ (f.member "error").shown

/-- The lines of a report. -/
def reportLines (r : Report) : List String :=
  [s!"Project: {r.project}",
    s!"Status: {r.record.status.toValue.shown}",
    s!"Converted: {r.mappings.length}  Failed: {r.record.failed.items.length}",
    s!"Lines of code: {r.lines}",
    ""] ++ mappingLines r ++ failureLines r

/-- The text of a report. -/
def reportText (json : Bool) (r : Report) : Except Misfit String :=
  if json then return Json.write (.object (← r.toDocument)) ++ "\n"
  else return String.join ((reportLines r).map (· ++ "\n"))

/-- The ending of a call that came to an incident; it is foreseen that projects cannot be
converted. -/
def Ending.ofIncident : Incident → Except Incident Ending
  | .failure f =>
    if f.kind.lineage.contains .project then
      pure ⟨1, "", s!"Conversion failed: {f.message}\n"⟩
    else throw (.failure f)
  | incident => throw incident

/-- Convert a project and report on it. -/
def convert {σ : Type} (c : Converter σ) (a : Arguments) (w : Workshop σ) :
    Except Incident Ending × Workshop σ :=
  match c.convertAll a.project w with
  | (.error incident, w) => (Ending.ofIncident incident, w)
  | (.ok _, w) =>
    let ending := do
      let report ← Report.ofProject c a.project w
      return ⟨0, ← (reportText a.json report).mapError .misfit, ""⟩
    (ending, w)

end PhpMigration.CommandLine
