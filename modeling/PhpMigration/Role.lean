/-
The roles that files of a project play.

A role is recognised by a word in the name of a file, or by signatures in its text: pieces that
stand one behind the other on a line.  The roles are asked in a fixed order and the first that
recognises the file wins, so a file that looks like two roles plays the earlier one.  A file that
none recognises is a utility.  A view is never recognised; it is there for those who know.
-/
import PhpMigration.Document.Value
import PhpMigration.Path
import PhpMigration.Text.Case
import PhpMigration.Text.Blank

namespace PhpMigration

/-- What a file is for. -/
inductive Role where
  | controller
  | model
  | route
  | middleware
  | config
  | util
  | view
  deriving DecidableEq, Repr, Inhabited

namespace Role

/-- All roles. -/
def all : List Role := [.controller, .model, .route, .middleware, .config, .util, .view]

/-- The roles that are recognised, in the order in which they are asked. -/
def recognised : List Role := [.controller, .model, .route, .middleware, .config]

/-- The roles a file can be given, the earlier one winning. -/
def priority : List Role := recognised ++ [.util]

/-- The word for a role, which is also the word that marks the name of a file. -/
def name : Role → String
  | .controller => "controller"
  | .model => "model"
  | .route => "route"
  | .middleware => "middleware"
  | .config => "config"
  | .util => "util"
  | .view => "view"

/-- The role of a word. -/
def ofName? (name : String) : Option Role := all.find? fun role => role.name = name

/-- The folder that files of a role are put into. -/
def folder : Role → String
  | .controller => "controllers"
  | .model => "models"
  | .route => "routes"
  | .middleware => "middlewares"
  | .config => "config"
  | .util => "utils"
  | .view => "views"

/-- A signature: pieces that stand one behind the other on a line. -/
abbrev Signature := List String

/-- The signatures of a role. -/
def signatures : Role → List Signature
  | .controller => [["class", "Controller"], ["extends", "Controller"], ["public function", "("],
      ["return", "view("], ["return", "json("]]
  | .model => [["class", "Model"], ["extends", "Model"], ["protected $table"],
      ["protected $fillable"], ["public static function"]]
  | .route => [["Route::"], ["router->"], ["get("], ["post("], ["put("], ["delete("]]
  | .middleware => [["middleware"], ["auth"], ["validate"], ["handle("], ["next("]]
  | .config => [["config"], ["database"], ["connection"], ["env"], ["define("]]
  | .util | .view => []

/-- The pieces stand one behind the other. -/
def inOrder : List (List Char) → List Char → Bool
  | [], _ => true
  | piece :: more, cs =>
    match Text.findFrom? piece cs with
    | none => false
    | some found => inOrder more (found.drop piece.length)

/-- The signature is found on some line of the text. -/
def shows (text : String) (signature : Signature) : Bool :=
  (Text.splitAt '\n' text.toList).any (inOrder (signature.map String.toList))

/-- The role recognises a file by its text, or by its name without the suffix. -/
def recognises (content stem : String) (role : Role) : Bool :=
  Text.contains (Text.lower stem) role.name || role.signatures.any (shows content)

/-- The role of a file. -/
def classify (content fileName : String) : Role :=
  (recognised.find? (recognises content (Path.stem fileName))).getD .util

end Role

/-! ### Where files are put -/

/-- Behind dashes, underscores and blanks, which are dropped, a capital stands. -/
def camelFrom : Bool → List Char → List Char
  | _, [] => []
  | pending, c :: rest =>
    if c = '-' || c = '_' || Text.isBlank c then camelFrom true rest
    else if pending then (Text.upper (String.singleton c)).toList ++ camelFrom false rest
    else c :: camelFrom false rest

/-- A name in camel case; its first letter stays as it is. -/
def camelCase (name : String) : String := String.ofList (camelFrom false name.toList)

/-- A dash goes before each capital behind a small letter. -/
def dashed : List Char → List Char
  | a :: b :: rest =>
    if a.isLower && b.isUpper then a :: '-' :: dashed (b :: rest) else a :: dashed (b :: rest)
  | cs => cs

/-- A name in kebab case. -/
def kebabCase (name : String) : String := Text.lower (String.ofList (dashed name.toList))

/-- The suffix of every converted file. -/
def targetSuffix : String := ".ts"

/-- The name that a file of a role is given; the names of routes have dashes. -/
def Role.rename (role : Role) (stem : String) : String :=
  if role = .route then kebabCase stem else camelCase stem

/-- Where a file of a role is put. -/
def Role.outputPath (role : Role) (fileName : String) : String :=
  role.folder ++ "/" ++ role.rename (Path.stem fileName) ++ targetSuffix

/-- Where a source file goes, and for what role. -/
structure Mapping where
  source : String
  target : String
  role : Role
  deriving DecidableEq, Repr, Inhabited

/-- A mapping as reports show it. -/
def Mapping.toDocument (m : Mapping) : Value :=
  .object [("originalPath", .text m.source), ("newPath", .text m.target),
    ("role", .text m.role.name)]

/-- The mapping of a file by its name and text. -/
def Mapping.ofFile (fileName content : String) : Mapping :=
  let role := Role.classify content fileName
  ⟨fileName, role.outputPath fileName, role⟩

end PhpMigration
