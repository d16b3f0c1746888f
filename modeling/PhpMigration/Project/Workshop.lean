/-
The workshop: everything that conversions of projects share.

It holds the files, the ledger, and for each project the mappings and the claims of its last
conversion.  Beside them stand the waits between attempts, and a journal with the record as it is
after every entry into the ledger, also an entry that changes nothing.  What a remote service
keeps for itself is a state of its own.
-/
import PhpMigration.Incident
import PhpMigration.Project.Claims
import PhpMigration.Project.Ledger
import PhpMigration.Role

namespace PhpMigration

/-- A file that could not be converted, and why. -/
structure FileFailure where
  file : String
  error : String
  deriving DecidableEq, Repr, Inhabited

/-- A failure as reports show it. -/
def FileFailure.toDocument (f : FileFailure) : Value :=
  .object [("file", .text f.file), ("error", .text f.error)]

/-- A record as reports show it. -/
def Record.report (r : Record) : Except Misfit Value := return .object (← r.toDocument)

/-- What conversions share. -/
structure Workshop (σ : Type) where
  tree : FileTree
  ledger : Ledger := []
  mappings : Table (List Mapping) := []
  claims : Table Claims := []
  waits : List Numeral := []
  journal : List Record := []
  /-- What a remote service keeps. -/
  service : σ

namespace Workshop

variable {σ : Type}

/-- The path of a project. -/
def folderOf (project : String) : List String := Path.parts project

/-- The path of a project as messages show it. -/
def shownFolder (w : Workshop σ) (project : String) : String := w.tree.shown (folderOf project)

/-- Whether the folder of a project is there. -/
def hasFolder (w : Workshop σ) (project : String) : Except Incident Bool :=
  (w.tree.leadsToFolder (folderOf project)).mapError .storage

/-- The record of a project. -/
def record (w : Workshop σ) (project : String) : Record := w.ledger.get project

/-- Make an entry into the ledger, which goes into the journal too; a misfit changes nothing. -/
def enter (entry : Ledger → Except Misfit (Record × Ledger)) (w : Workshop σ) :
    Except Misfit Record × Workshop σ :=
  match entry w.ledger with
  | .ok (r, ledger) => (.ok r, { w with ledger, journal := w.journal ++ [r] })
  | .error misfit => (.error misfit, w)

/-- Begin a fresh record, unless a conversion of the project is under way. -/
def create (project : String) (c : Change) (w : Workshop σ) :
    Except Misfit (Option Record) × Workshop σ :=
  match w.ledger.create project c with
  | .ok (r, ledger) => (.ok r, { w with ledger })
  | .error misfit => (.error misfit, w)

/-- Merge a change into the record of a project. -/
def update (project : String) (c : Change) (w : Workshop σ) : Workshop σ :=
  (w.enter (Ledger.update project c)).2

/-- Count one more file of a project. -/
def settle (project : String) (failure : Option Value) (w : Workshop σ) :
    Except Misfit Record × Workshop σ :=
  w.enter (Ledger.settle project failure)

/-- The conversion of a project is complete. -/
def complete (project : String) (w : Workshop σ) : Except Misfit Record × Workshop σ :=
  w.enter (Ledger.complete project)

/-- The conversion of a project has failed. -/
def fail (project message : String) (w : Workshop σ) : Workshop σ :=
  (w.enter (Ledger.fail project (.text message))).2

/-- Stop the conversion of a project, and say whether it is stopped now.  Nothing is entered for a
project without a record. -/
def stop (project : String) (w : Workshop σ) : Except Misfit Bool × Workshop σ :=
  let stopping := Ledger.stop project (.text Ledger.stopMessage)
  if Table.has w.ledger project then
    let (r, w) := w.enter stopping
    (r.map fun r => decide (r.status = .stopped), w)
  else ((stopping w.ledger).map fun (r, _) => decide (r.status = .stopped), w)

/-- The mappings of a project. -/
def mappingsOf (w : Workshop σ) (project : String) : List Mapping :=
  (Table.find? w.mappings project).getD []

/-- One more mapping of a project. -/
def addMapping (project : String) (m : Mapping) (w : Workshop σ) : Workshop σ :=
  { w with mappings := Table.set project (w.mappingsOf project ++ [m]) w.mappings }

/-- Claim an output path for a file of a project. -/
def claim (project file path : String) (w : Workshop σ) : String × Workshop σ :=
  let (given, claims) := ((Table.find? w.claims project).getD []).claim file path
  (given, { w with claims := Table.set project claims w.claims })

/-- Forget the mappings and claims of a project. -/
def forget (project : String) (w : Workshop σ) : Workshop σ :=
  { w with
    mappings := Table.set project [] w.mappings
    claims := Table.set project [] w.claims }

end Workshop

end PhpMigration
