/-
Everything that can go wrong on the way of a file through its conversion.

Most incidents are failures of a known kind.  The others are gaps of the conversion itself, files
that are no text or cannot be reached, and whatever else a remote service reports.
-/
import PhpMigration.Document.Need
import PhpMigration.JavaScript.Printer
import PhpMigration.Lowering.Basic
import PhpMigration.Php.ToCore
import PhpMigration.Project.FileTree
import PhpMigration.Remote.Refusal
import PhpMigration.Settings

namespace PhpMigration

/-- Something that went wrong. -/
inductive Incident where
  | failure (failure : Failure)
  | refusal (refusal : Refusal)
  /-- A service names a wait without end. -/
  | endlessWait
  | tree (fault : Php.TreeFault)
  | lowering (fault : Lowering.Fault)
  | printing (fault : JavaScript.PrintFault)
  | undecodable (fault : Text.Utf8.Fault)
  | storage (fault : StorageFault)
  /-- A document holds what is of no use in its place. -/
  | misfit (misfit : Misfit)
  | settings (fault : SettingsFault)
  /-- Anything else that a component reports, by its name and wording. -/
  | other (name text : String)
  deriving Inhabited

namespace Incident

/-- The orders to end the whole program, which nothing on the way deals with. -/
def interruptions : List String :=
  ["BaseException", "SystemExit", "KeyboardInterrupt", "GeneratorExit"]

/-- The incident is an order to end the whole program. -/
def isInterruption : Incident → Bool
  | .other name _ => interruptions.contains name
  | _ => false

/-- The wording of an incident, where it has one. -/
def text? : Incident → Option String
  | .failure f => some f.message
  | .refusal r => some r.message
  | .endlessWait => (Misfit.notFinite true).message?
  | .tree f => f.message?
  | .lowering f => f.message?
  | .printing f => f.message?
  | .undecodable f => some f.message
  | .storage f => some f.message
  | .misfit m => m.message?
  | .settings f => some f.message
  | .other _ text => some text

/-- The wording of an incident. -/
def text (i : Incident) : String := i.text?.getD ""

/-- The failure that an incident is. -/
def failure? : Incident → Option Failure
  | .failure f => some f
  | _ => none

end Incident

end PhpMigration
