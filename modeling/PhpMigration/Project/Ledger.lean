/-
The ledger of conversions: one record for each project.

A record is replaced as a whole, and its progress never goes down.  A record that has come to an
end, completed, failed or stopped, is never changed again; it only gives way to a fresh record
or is forgotten.  What is entered may be anything: a value that cannot be counted with or compared
is a misfit, and then nothing is entered.
-/
import PhpMigration.Document.Need

namespace PhpMigration

/-- How far a conversion has come. -/
inductive Status where
  | inProgress
  | completed
  | error
  | stopped
  | other (value : Value)
  deriving DecidableEq, Repr, Inhabited

namespace Status

/-- The word for a status. -/
def toValue : Status → Value
  | .inProgress => .text "in_progress"
  | .completed => .text "completed"
  | .error => .text "error"
  | .stopped => .text "stopped"
  | .other value => value

/-- The status of a word. -/
def ofValue : Value → Status
  | .text "in_progress" => .inProgress
  | .text "completed" => .completed
  | .text "error" => .error
  | .text "stopped" => .stopped
  | value => .other value

/-- The conversion has come to an end; a list or an object is no word that could say so. -/
def isTerminal : Status → Except Misfit Bool
  | .completed | .error | .stopped => pure true
  | .other (.list _) | .other (.object _) => throw .wrongKind
  | .inProgress | .other _ => pure false

end Status

/-- The record of a project's conversion. -/
structure Record where
  status : Status := .inProgress
  progress : Value := .int 0
  step : Value := .text "initializing"
  completed : Value := .int 0
  total : Value := .int 0
  error : Value := .null
  failed : Value := .list []
  deriving DecidableEq, Repr, Inhabited

/-- New values for some parts of a record. -/
structure Change where
  status : Option Status := none
  progress : Option Value := none
  step : Option Value := none
  completed : Option Value := none
  total : Option Value := none
  error : Option Value := none
  failed : Option Value := none
  /-- Something is to be changed that no record has. -/
  isStrange : Bool := false
  deriving DecidableEq, Repr, Inhabited

/-- The names of the parts of a record. -/
def Change.names : List String :=
  ["status", "progress", "current_step", "completed_files", "total_files", "error", "failed_files"]

/-- The change that a table describes. -/
def Change.ofTable (t : Table Value) : Change :=
  { status := (Table.find? t "status").map .ofValue
    progress := Table.find? t "progress"
    step := Table.find? t "current_step"
    completed := Table.find? t "completed_files"
    total := Table.find? t "total_files"
    error := Table.find? t "error"
    failed := Table.find? t "failed_files"
    isStrange := t.any fun entry => !names.contains entry.1 }

/-- Whole percent, held at 99 until the conversion is completed. -/
def percentDone (completed total : Numeral) : Except Misfit Numeral := do
  if total.le 0 then return 0
  else return (← Value.floorQuotient (completed.mul 100) total).min 99

namespace Record

/-- The progress after a change: it never goes down, and stays below 100 unless the change
completes the conversion. -/
def progressAfter (r : Record) (c : Change) : Except Misfit Value :=
  match c.progress with
  | none => pure r.progress
  | some p => do
    r.progress.greater (← if c.status = some .completed then pure p else p.lesser (.int 99))

/-- The record with the values of a change, whose progress is given. -/
def withChange (r : Record) (c : Change) (progress : Value) : Except Misfit Record :=
  if c.isStrange then throw .wrongKind
  else pure
    { status := c.status.getD r.status
      progress
      step := c.step.getD r.step
      completed := c.completed.getD r.completed
      total := c.total.getD r.total
      error := c.error.getD r.error
      failed := c.failed.getD r.failed }

/-- The record with a change merged into it. -/
def merge (r : Record) (c : Change) : Except Misfit Record := do
  r.withChange c (← r.progressAfter c)

/-- A fresh record with the values of a change. -/
def ofChange (c : Change) : Except Misfit Record :=
  ({} : Record).withChange c (c.progress.getD (.int 0))

/-- The failed files; each is an object, or given by pairs. -/
def failures (r : Record) : Except Misfit (List Value) := do
  (← r.failed.needItems).mapM fun f => return .object (Table.update [] (← f.needTable))

/-- A record as reports show it. -/
def toDocument (r : Record) : Except Misfit (Table Value) :=
  return [
    ("status", r.status.toValue),
    ("progress", r.progress),
    ("currentStep", r.step),
    ("completedFiles", r.completed),
    ("totalFiles", r.total),
    ("error", r.error),
    ("failedFiles", .list (← r.failures))]

end Record

/-- One record for each project. -/
abbrev Ledger := Table Record

namespace Ledger

/-- The record of a project; one without a record counts as just begun. -/
def get (l : Ledger) (project : String) : Record := (Table.find? l project).getD {}

/-- The ledger with a record entered for a project, beside the record. -/
def enter (project : String) (l : Ledger) (r : Record) : Record × Ledger :=
  (r, Table.set project r l)

/-- A fresh record may be begun: no conversion of the project has still to come to an end. -/
def isFree (l : Ledger) (project : String) : Except Misfit Bool :=
  match Table.find? l project with
  | some r => r.status.isTerminal
  | none => pure true

/-- Begin a fresh record, unless a conversion of the project has not come to an end. -/
def create (project : String) (c : Change) (l : Ledger) :
    Except Misfit (Option Record × Ledger) := do
  if ← l.isFree project then
    let (r, l) := l.enter project (← Record.ofChange c)
    return (some r, l)
  else return (none, l)

/-- Merge the change that a record calls for into it, unless the record has come to an end. -/
def revise (project : String) (change : Record → Except Misfit Change) (l : Ledger) :
    Except Misfit (Record × Ledger) := do
  let r := l.get project
  if ← r.status.isTerminal then return (r, l)
  else return l.enter project (← r.merge (← change r))

/-- Merge a change into a project's record, unless the record has come to an end. -/
def update (project : String) (c : Change) (l : Ledger) : Except Misfit (Record × Ledger) :=
  l.revise project fun _ => pure c

/-- The list of failures with one more. -/
def withFailure (failed failure : Value) : Except Misfit Value := do
  let members ← failure.needTable
  match failed with
  | .list failures => return .list (failures ++ [.object (Table.update [] members)])
  | _ => throw .wrongKind

/-- The change that one more file makes, which may have failed. -/
def settlement (failure : Option Value) (r : Record) : Except Misfit Change := do
  let completed := (← r.completed.needNumeral).add 1
  let progress ← percentDone completed (← r.total.needNumeral)
  return {
    completed := some (.number completed)
    progress := some (.number progress)
    failed := ← failure.mapM (withFailure r.failed) }

/-- Count one more file of a project. -/
def settle (project : String) (failure : Option Value) (l : Ledger) :
    Except Misfit (Record × Ledger) :=
  l.revise project (settlement failure)

/-- The conversion of a project is complete. -/
def complete (project : String) (l : Ledger) : Except Misfit (Record × Ledger) :=
  l.update project
    { status := some .completed, progress := some (.int 100), step := some (.text "completed") }

/-- The conversion of a project has failed. -/
def fail (project : String) (message : Value) (l : Ledger) : Except Misfit (Record × Ledger) :=
  l.update project
    { status := some .error, step := some (.text "error"), error := some message }

/-- The change that a stop makes. -/
def stopping (message : Value) : Change :=
  { status := some .stopped, step := some (.text "stopped"), error := some message }

/-- What is said of a stop without a message of its own. -/
def stopMessage : String := "Conversion stopped by user"

/-- Stop the conversion of a project; a project without a record keeps having none. -/
def stop (project : String) (message : Value) (l : Ledger) : Except Misfit (Record × Ledger) :=
  if Table.has l project then l.update project (stopping message)
  else return (← Record.ofChange (stopping message), l)

/-- The conversion of a project was stopped. -/
def isStopped (l : Ledger) (project : String) : Bool := (l.get project).status = .stopped

/-- Forget the record of a project, or all records. -/
def clear (project : Option String) (l : Ledger) : Ledger :=
  match project with
  | some project => Table.erase project l
  | none => []

end Ledger

end PhpMigration
