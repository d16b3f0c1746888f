/-
Converting a project, move by move.

The files of a project are cut into chunks, and the chunks are dispatched one after another, each
only when every file of the one before has been settled.  A file of the chunk at hand is attempted
until an attempt succeeds or no more attempts are allowed, and then it is settled: its mapping or
its failure is entered.  The moves of different files of a chunk may come in any order.  A stop is
looked for before a chunk is dispatched and never in between, so a chunk that has been dispatched
is finished.  A file at which the whole program is told to end is never settled, so no chunk is
dispatched after its own.

A whole conversion makes the moves of the first file that is not settled, over and over; every
move makes the weight of what is left smaller, which bounds their number.
-/
import PhpMigration.Conversion.Basic
import PhpMigration.Project.Discovery
import PhpMigration.Project.Skeleton
import PhpMigration.Project.Workshop

namespace PhpMigration

/-- What converts projects. -/
structure Converter (σ : Type) where
  settings : Settings
  textConverter : TextConverter (Workshop σ)

/-- A service that looks at nothing but its own state. -/
def Workshop.serviceOf {σ : Type} (service : Service σ) : Service (Workshop σ) := fun prompt w =>
  let (reply, state) := service prompt w.service
  (reply, { w with service := state })

/-- The converter that reads with a parser and asks a service. -/
def Converter.ofService {σ : Type} (settings : Settings) (parser : SourceParser)
    (service : Service σ) : Converter σ :=
  { settings
    textConverter :=
      { useAi := settings.useAi, service := some (Workshop.serviceOf service), parser } }

/-- How far a file of the chunk at hand has come. -/
inductive Standing where
  /-- The attempt of a number comes next. -/
  | waiting (attempt : Nat)
  | converted (mapping : Mapping)
  | failed (cause : Incident)
  /-- The program has been told to end. -/
  | abandoned (cause : Incident)
  | settled
  deriving Inhabited

/-- A file of the chunk at hand; its path is that from the folder of the project. -/
structure Task where
  file : List String
  standing : Standing
  deriving Inhabited

/-- The file has been settled. -/
def Task.isSettled (t : Task) : Bool :=
  match t.standing with
  | .settled => true
  | _ => false

/-- Why the file has been abandoned. -/
def Task.abandonment? (t : Task) : Option Incident :=
  match t.standing with
  | .abandoned cause => some cause
  | _ => none

/-- A conversion of a project: where its output goes, the chunk at hand, and the chunks still to be
dispatched. -/
structure Run where
  project : String
  output : List String
  tasks : List Task
  queue : List (List (List String))
  deriving Inhabited

/-- What can happen next in a conversion; a file is given by its place in the chunk. -/
inductive Move where
  | dispatch
  | attempt (place : Nat)
  | settle (place : Nat)
  deriving DecidableEq, Repr

/-- Chunks of at most so many files; the size is not zero. -/
def chunksOf {α : Type} (size : Nat) (files : List α) : List (List α) :=
  if files.isEmpty || size = 0 then []
  else files.take size :: chunksOf size (files.drop size)
  termination_by files.length
  decreasing_by
    rename_i h
    simp only [List.length_drop]
    cases files <;> simp_all
    omega

namespace Converter

variable {σ : Type}

/-- The path of a project's output. -/
def outputFolder (c : Converter σ) (project : String) : Except Incident (List String) :=
  (c.settings.outputName.map fun name => Workshop.folderOf project ++ Path.parts name).mapError
    .settings

/-! ### One attempt -/

/-- Write a converted file to the path that it is given. -/
def deliver (r : Run) (m : Mapping) (code : String) (w : Workshop σ) :
    Except Incident Mapping × Workshop σ :=
  let (target, w) := w.claim r.project m.source m.target
  match Skeleton.writeFile (r.output ++ Path.parts target) code w.tree with
  | (.ok (), tree) => (.ok { m with target }, { w with tree })
  | (.error fault, tree) => (.error (.storage fault), { w with tree })

/-- The text of a source file. -/
def sourceText (t : FileTree) (path : List String) : Except Incident String := do
  let bytes ← (t.read path).mapError .storage
  let text ← (Text.Utf8.decode bytes).mapError .undecodable
  pure (withoutMarks (Text.withLineFeeds text))

/-- One attempt at a file: read it, convert its text, and write the result. -/
def attempt (c : Converter σ) (r : Run) (file : List String) (w : Workshop σ) :
    Except Incident Mapping × Workshop σ :=
  match sourceText w.tree (Workshop.folderOf r.project ++ file) with
  | .error incident => (.error incident, w)
  | .ok content =>
    let name := Path.join file
    let (outcome, w) := c.textConverter.convert content name w
    match outcome.result with
    | .error incident => (.error incident, w)
    | .ok code => deliver r (.ofFile name content) code w

/-! ### Moves -/

/-- Dispatch the next chunk, unless the conversion was stopped. -/
def dispatch (r : Run) (w : Workshop σ) : Option Run :=
  match r.tasks.all Task.isSettled, r.queue with
  | true, chunk :: rest =>
    if w.ledger.isStopped r.project then some { r with tasks := [], queue := [] }
    else some { r with tasks := chunk.map fun file => ⟨file, .waiting 1⟩, queue := rest }
  | _, _ => none

/-- The run with another standing of the file at a place. -/
def setStanding (r : Run) (place : Nat) (file : List String) (standing : Standing) : Run :=
  { r with tasks := r.tasks.set place ⟨file, standing⟩ }

/-- What a failed attempt leads to. -/
def afterFailure (c : Converter σ) (attempt : Nat) (cause : Incident) (w : Workshop σ) :
    Standing × Workshop σ :=
  if cause.isInterruption then (.abandoned cause, w)
  else match c.settings.retryPolicy.again? attempt cause with
  | some wait => (.waiting (attempt + 1), { w with waits := w.waits ++ [wait] })
  | none => (.failed cause, w)

/-- Make an attempt at the file at a place. -/
def tryFile (c : Converter σ) (place : Nat) (r : Run) (w : Workshop σ) :
    Option (Run × Workshop σ) :=
  match r.tasks[place]? with
  | some ⟨file, .waiting attempt⟩ =>
    match c.attempt r file w with
    | (.ok mapping, w) => some (setStanding r place file (.converted mapping), w)
    | (.error cause, w) =>
      let (standing, w) := c.afterFailure attempt cause w
      some (setStanding r place file standing, w)
  | _ => none

/-- Settle the file at a place. -/
def settleFile (place : Nat) (r : Run) (w : Workshop σ) : Option (Run × Workshop σ) :=
  match r.tasks[place]? with
  | some ⟨file, .converted mapping⟩ =>
    some (setStanding r place file .settled,
      ((w.addMapping r.project mapping).settle r.project none).2)
  | some ⟨file, .failed cause⟩ =>
    let failure : FileFailure := ⟨Path.join file, cause.text⟩
    some (setStanding r place file .settled, (w.settle r.project (some failure.toDocument)).2)
  | _ => none

/-- Make a move, if it can be made. -/
def step (c : Converter σ) (m : Move) (r : Run) (w : Workshop σ) : Option (Run × Workshop σ) :=
  match m with
  | .dispatch => (dispatch r w).map fun r => (r, w)
  | .attempt place => c.tryFile place r w
  | .settle place => settleFile place r w

/-- Make moves one after another, as long as they can be made. -/
def steps (c : Converter σ) : List Move → Run → Workshop σ → Option (Run × Workshop σ)
  | [], r, w => some (r, w)
  | m :: rest, r, w => (c.step m r w).bind fun (r, w) => c.steps rest r w

/-! ### A whole conversion -/

/-- The move of the first file that is not settled, whose place is counted from `place`. -/
def nextFrom (place : Nat) : List Task → Option Move
  | [] => none
  | ⟨_, .settled⟩ :: rest | ⟨_, .abandoned _⟩ :: rest => nextFrom (place + 1) rest
  | ⟨_, .waiting _⟩ :: _ => some (.attempt place)
  | _ :: _ => some (.settle place)

/-- The next move when the files are taken in turn; none if the conversion is at its end. -/
def nextMove (r : Run) : Option Move :=
  match nextFrom 0 r.tasks with
  | some m => some m
  | none => if r.queue.isEmpty then none else some .dispatch

/-- The moves that a file may still need. -/
def Standing.weight (maxAttempts : Nat) : Standing → Nat
  | .waiting attempt => maxAttempts - attempt + 2
  | .converted _ | .failed _ => 1
  | .abandoned _ | .settled => 0

/-- The moves that a conversion may still need. -/
def weight (maxAttempts : Nat) (r : Run) : Nat :=
  r.tasks.foldr (fun t n => Standing.weight maxAttempts t.standing + n) 0 +
    r.queue.foldr (fun chunk n => 1 + chunk.length * (maxAttempts + 1) + n) 0

/-- Make at most so many moves, taking the files in turn. -/
def inTurn (c : Converter σ) : Nat → Run → Workshop σ → Run × Workshop σ
  | 0, r, w => (r, w)
  | left + 1, r, w =>
    match (nextMove r).bind fun m => c.step m r w with
    | some (r, w) => c.inTurn left r w
    | none => (r, w)

/-- Make all moves of a conversion, taking the files in turn. -/
def finish (c : Converter σ) (r : Run) (w : Workshop σ) : Run × Workshop σ :=
  c.inTurn (weight c.settings.maxAttempts r) r w

/-! ### Beginning and end -/

/-- What is said of a project whose folder is not there. -/
def noFolder (project : String) (w : Workshop σ) : Failure :=
  .project ("Project directory does not exist: " ++ w.shownFolder project) project

/-- What is said of a project without source files. -/
def noFiles (project : String) : Failure :=
  .project "No PHP files found in project directory" project

/-- What is said of a project whose skeleton cannot be laid. -/
def noSkeleton (project : String) (fault : StorageFault) : Incident :=
  if fault.problem = .unnameable then .storage fault
  else .failure (.project ("Failed to create project structure: " ++ fault.message) project)

/-- What is said of a project that is being converted already. -/
def underWay (project : String) : Failure :=
  .inProgress ("Conversion already in progress for project " ++ project) project

/-- The source files of a project, by their paths from its folder. -/
def sources (c : Converter σ) (project : String) (w : Workshop σ) :
    Except Incident (List (List String)) :=
  (Discovery.sources c.settings (Workshop.folderOf project) w.tree).mapError .settings

/-- The folder of a project must be there. -/
def needFolder (project : String) (w : Workshop σ) : Except Incident Unit := do
  if !(← w.hasFolder project) then throw (.failure (noFolder project w))

/-- The source files of a project, of which there must be some. -/
def needSources (c : Converter σ) (project : String) (w : Workshop σ) :
    Except Incident (List (List String)) := do
  let files ← c.sources project w
  if files.isEmpty then throw (.failure (noFiles project)) else return files

/-- Lay the skeleton of a project; the path of its output. -/
def laySkeleton (c : Converter σ) (project : String) (w : Workshop σ) :
    Except Incident (List String) × Workshop σ :=
  match c.outputFolder project with
  | .error incident => (.error incident, w)
  | .ok output =>
    match Skeleton.lay output project w.tree with
    | (.error fault, tree) => (.error (noSkeleton project fault), { w with tree })
    | (.ok _, tree) => (.ok output, { w with tree })

/-- Lay the skeleton and find the files; the conversion is ready to make its moves then. -/
def prepare (c : Converter σ) (project : String) (w : Workshop σ) :
    Except Incident Run × Workshop σ :=
  match needFolder project w with
  | .error incident => (.error incident, w)
  | .ok () =>
    match c.laySkeleton project (w.update project { step := some (.text "creating_structure") }) with
    | (.error incident, w) => (.error incident, w)
    | (.ok output, w) =>
      match c.needSources project w with
      | .error incident => (.error incident, w)
      | .ok files =>
        let w := (w.forget project).update project
          { total := some (.int files.length), step := some (.text "converting") }
        (.ok ⟨project, output, [], chunksOf c.settings.chunkSize files⟩, w)

/-- The record at the end of a conversion: it is complete unless it was stopped. -/
def conclude (project : String) (w : Workshop σ) : Record × Workshop σ :=
  let w := if w.ledger.isStopped project then w else (w.complete project).2
  (w.record project, w)

/-- What is entered for an incident that ends a whole conversion. -/
def lastWords (incident : Incident) : String :=
  if incident.text.isEmpty then "Conversion failed" else incident.text

/-- Convert a project whose record has been begun. -/
def convertBegun (c : Converter σ) (project : String) (w : Workshop σ) :
    Except Incident Record × Workshop σ :=
  match c.prepare project w with
  | (.error incident, w) => (.error incident, w.fail project (lastWords incident))
  | (.ok run, w) =>
    let (run, w) := c.finish run w
    match run.tasks.findSome? Task.abandonment? with
    | some cause => (.error cause, w)
    | none =>
      let (record, w) := conclude project w
      (.ok record, w)

/-- Begin a fresh record, unless the project is being converted already. -/
def beginRecord (project : String) (c : Change) (w : Workshop σ) :
    Except Incident Unit × Workshop σ :=
  match w.create project c with
  | (.error misfit, w) => (.error (.misfit misfit), w)
  | (.ok none, w) => (.error (.failure (underWay project)), w)
  | (.ok (some _), w) => (.ok (), w)

/-- Convert a project, unless it is being converted already. -/
def convertAll (c : Converter σ) (project : String) (w : Workshop σ) :
    Except Incident Record × Workshop σ :=
  match beginRecord project {} w with
  | (.error incident, w) => (.error incident, w)
  | (.ok (), w) => c.convertBegun project w

/-- Begin to convert a project, if there is anything to convert: the number of its files. -/
def begin? (c : Converter σ) (project : String) (w : Workshop σ) :
    Except Incident Nat × Workshop σ :=
  match needFolder project w >>= fun _ => c.needSources project w with
  | .error incident => (.error incident, w)
  | .ok files =>
    match beginRecord project { total := some (.int files.length) } w with
    | (.error incident, w) => (.error incident, w)
    | (.ok (), w) => (.ok files.length, w)

/-- Begin to convert a project and go on to the end; what fails on the way is in its record. -/
def start (c : Converter σ) (project : String) (w : Workshop σ) :
    Except Incident Nat × Workshop σ :=
  match c.begin? project w with
  | (.error incident, w) => (.error incident, w)
  | (.ok count, w) => (.ok count, (c.convertBegun project w).2)

end Converter

end PhpMigration
