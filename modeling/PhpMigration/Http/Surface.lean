/-
The service: every request is answered.

What a request leads to and which document it brings is found out by the framework that the service
runs in, and may be anything.  A request that names no resource, or the wrong method, is answered as
such.  The name of a
project must be that of a single folder, and is checked before any file is looked at, so no
request reaches beyond the folder that holds all projects.  Whatever cannot be foreseen is
answered as an error of the service, and changes nothing but what has been done before.
-/
import PhpMigration.Document.Shown
import PhpMigration.Http.Body
import PhpMigration.Http.Resource
import PhpMigration.Project.Report
import PhpMigration.Project.Review
import PhpMigration.Remote.Breaker

namespace PhpMigration.Http

/-- An answer, whose document may be missing. -/
structure Reply where
  status : Nat
  document : Value := .null
  deriving Repr, Inhabited

namespace Reply

/-- A good answer. -/
def ok (members : Table Value) : Reply := ⟨200, .object members⟩

/-- An answer that says what is wrong. -/
def error (status : Nat) (message : String) : Reply := ⟨status, .object [("error", .text message)]⟩

/-- An answer that says what is wrong, and why. -/
def refusal (status : Nat) (message details : String) : Reply :=
  ⟨status, .object [("error", .text message), ("details", .text details)]⟩

/-- The path leads nowhere. -/
def notFound : Reply := error 404 "Not found"

/-- The resource does not take the method. -/
def notAllowed : Reply := error 405 "Method not allowed"

/-- The service itself is at fault. -/
def broken : Reply := error 500 "Internal server error"

/-- The client is sent to the same path with fewer slashes. -/
def elsewhere : Reply := ⟨308, .null⟩

/-- The answer for a result: a failure of a project is answered as such, and whatever cannot be
foreseen as an error of the service. -/
def ofResult {α : Type} (onFailure : Failure → Reply) (onResult : α → Reply) :
    Except Incident α → Reply
  | .ok value => onResult value
  | .error (.failure f) => if f.kind.lineage.contains .project then onFailure f else broken
  | .error _ => broken

/-- The answer for a document, which may hold what cannot be shown. -/
def ofDocument : Except Misfit (Table Value) → Reply
  | .ok members => ok members
  | .error _ => broken

end Reply

/-! ### The framework -/

/-- What a service runs in. -/
structure Framework where
  /-- What a method, in capitals, and a target lead to. -/
  route : (method target : String) → Route
  /-- The document that a request brings, if it brings one. -/
  given? : Request → Option Value

/-- The document of a request; one that gives nothing is an object without members. -/
def Framework.document (f : Framework) (r : Request) : Value :=
  ((f.given? r).getD .null).orElse (.object [])

/-- The framework that routes by the segments of a target and reads the documents in bodies. -/
def Framework.usual : Framework := { route := Route.of, given? := Request.given? }

/-! ### Projects -/

/-- The names that cannot be those of a folder. -/
def noNames : List String := ["undefined", ".", ".."]

/-- The marks that cut paths. -/
def separators : List String := ["/", "\\"]

/-- The text is the name of a single folder. -/
def isProjectName (name : String) : Bool :=
  !name.isEmpty && !noNames.contains name && !separators.any (Text.contains name)

/-- What is said of a name that is not that of a single folder. -/
def invalidName : Reply := .error 400 "Invalid project ID"

/-- A list or an object that holds a separator by itself. -/
def holdsSeparator : Value → Bool
  | .list items => items.any fun item => item.text?.any separators.contains
  | .object members => members.any fun entry => separators.contains entry.1
  | _ => false

/-- The name of a project in a document, or the answer to a document without one. -/
def projectOf : Value → Except Reply String
  | .object members =>
    match (Table.find? members "projectId").getD .null with
    | .text name =>
      if name.isEmpty then .error (.error 400 "Project ID is required")
      else if isProjectName name then .ok name
      else .error invalidName
    | v =>
      if !v.isGiven then .error (.error 400 "Project ID is required")
      else if holdsSeparator v then .error invalidName
      else .error .broken
  | _ => .error .broken

/-! ### Answers -/

/-- The service over a converter, and where its breakers are. -/
structure Surface (σ : Type) where
  converter : Converter σ
  breakers : σ → BreakerRegistry

namespace Surface

variable {σ : Type}

/-- What is said of a project that cannot be started. -/
def startRefusal (f : Failure) : Reply :=
  if f.kind = .inProgress then .refusal 409 "Conversion already in progress" f.message
  else .refusal 400 "No PHP files found in the project" f.message

/-- Begin to convert a project. -/
def start (s : Surface σ) (project : String) (w : Workshop σ) : Reply × Workshop σ :=
  match w.hasFolder project with
  | .error _ => (.broken, w)
  | .ok false => (.error 404 "Project directory not found", w)
  | .ok true =>
    let (started, w) := s.converter.start project w
    (.ofResult startRefusal (fun (total : Nat) => .ok [("message", .text "Conversion started"),
      ("projectId", .text project), ("totalFiles", .int total)]) started, w)

/-- Stop the conversion of a project. -/
def stop (project : String) (w : Workshop σ) : Reply × Workshop σ :=
  let (stopped, w) := w.stop project
  (.ofDocument (stopped.map fun stopped =>
    [("message", .text (if stopped then "Conversion stopped" else "Conversion already finished")),
      ("projectId", .text project)]), w)

/-- The analysis of a project. -/
def analysis (s : Surface σ) (project : String) (w : Workshop σ) : Reply :=
  .ofResult (fun _ => .error 404 "Project not found")
    (fun analysis => .ok (("projectId", .text project) :: analysis.toDocument))
    (Review.analysis s.converter project w)

/-- The list of converted files. -/
def files (s : Surface σ) (project : String) (w : Workshop σ) : Reply :=
  if !isProjectName project then invalidName
  else .ofResult (fun _ => .error 404 "No converted files found")
    (fun entries => .ok [("files", .list entries)]) (Review.entries s.converter project w)

/-- The text of a file. -/
def file (project path : String) (w : Workshop σ) : Reply :=
  if !isProjectName project then invalidName
  else match Review.read project path w with
    | .ok content => .ok [("content", .text content)]
    | .error (.missing _) => .error 404 "File not found"
    | .error (.outside _) | .error .unnameable => .error 400 "Invalid file path"
    | .error (.circle _) | .error (.storage _) => .broken

/-- The report on a project. -/
def report (s : Surface σ) (project : String) (w : Workshop σ) : Reply :=
  if !isProjectName project then invalidName
  else .ofResult (fun _ => .error 404 "Project directory not found")
    (fun report => .ofDocument report.toDocument) (Report.ofProject s.converter project w)

/-- How a text is called that has no name. -/
def snippetName : String := "snippet.php"

/-- The conversion of a single text.  Its name may be anything, and is given back. -/
def snippet (s : Surface σ) (document : Value) (w : Workshop σ) : Reply × Workshop σ :=
  match document with
  | .object members =>
    let code := (((Table.find? members "code").getD .null).text?).getD ""
    let name := ((Table.find? members "fileName").getD .null).orElse (.text snippetName)
    if (Text.strip code).isEmpty then (.error 400 "No code provided. Expected field: code", w)
    else
      let (outcome, w) := s.converter.textConverter.convertSnippet code name w
      match outcome.result with
      | .ok result => (.ok result.toDocument, w)
      | .error _ => (.broken, w)
  | _ => (.broken, w)

/-- The answer of a resource, whose method is right, to a document. -/
def respond (s : Surface σ) (document : Value) (w : Workshop σ) : Resource → Reply × Workshop σ
  | .health =>
    (.ok [("status", .text "ok"), ("circuitBreakers", (s.breakers w.service).toDocument)], w)
  | .conversion =>
    match projectOf document with
    | .ok project => s.start project w
    | .error reply => (reply, w)
  | .status project => (.ofDocument (w.record project).toDocument, w)
  | .stop project => stop project w
  | .analysis =>
    match projectOf document with
    | .ok project => (s.analysis project w, w)
    | .error reply => (reply, w)
  | .files project => (s.files project w, w)
  | .file project path => (file project path w, w)
  | .report project => (s.report project w, w)
  | .snippet => s.snippet document w
  | .asset _ => (.notFound, w)

/-- The answer to a request; where only the head or the methods are asked for, it has no
document. -/
def serve (s : Surface σ) (f : Framework) (r : Request) (w : Workshop σ) : Reply × Workshop σ :=
  let method := r.method.toUpper
  let (reply, w) : Reply × Workshop σ := match f.route method r.target with
    | .nowhere => (.notFound, w)
    | .elsewhere => (.elsewhere, w)
    | .refused _ => (.notAllowed, w)
    | .resource resource =>
      if method = "OPTIONS" then (⟨200, .null⟩, w) else s.respond (f.document r) w resource
  (if method = "HEAD" then { reply with document := .null } else reply, w)

end Surface

end PhpMigration.Http
