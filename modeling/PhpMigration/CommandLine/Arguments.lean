/-
The words behind the name of the program.

A word that begins with a dash is an option, unless it is a negative number or holds a space.  An
option is called by its name or by any beginning of it that no other name has; its value is the
next word, or follows an equals sign.  Words that are no option and no value of one are refused,
and so is a call that does not name a project.
-/
import PhpMigration.Configuration
import PhpMigration.Settings

namespace PhpMigration.CommandLine

/-- The options. -/
inductive Flag where
  | help
  | project
  | uploadFolder
  | noAi
  | chunkSize
  | maxAttempts
  | json
  deriving DecidableEq, Repr, Inhabited

namespace Flag

/-- All options. -/
def all : List Flag := [.help, .project, .uploadFolder, .noAi, .chunkSize, .maxAttempts, .json]

/-- The name of an option. -/
def name : Flag → String
  | .help => "--help"
  | .project => "--project-id"
  | .uploadFolder => "--upload-dir"
  | .noAi => "--no-ai"
  | .chunkSize => "--chunk-size"
  | .maxAttempts => "--max-retries"
  | .json => "--json"

/-- The short name of an option. -/
def shortName? : Flag → Option String
  | .help => some "-h"
  | _ => none

/-- The option needs a value. -/
def takesValue : Flag → Bool
  | .project | .uploadFolder | .chunkSize | .maxAttempts => true
  | .help | .noAi | .json => false

/-- The option of exactly that name. -/
def named? (word : String) : Option Flag :=
  all.find? fun flag => flag.name = word || flag.shortName? = some word

/-- The options whose names begin like that; a single dash begins none. -/
def beginning (word : String) : List Flag :=
  if "--".isPrefixOf word then all.filter fun flag => word.isPrefixOf flag.name else []

end Flag

/-! ### Words -/

/-- What a word is by itself. -/
inductive Word where
  | flag (flag : Flag) (value : Option String)
  | plain (text : String)
  /-- Two dashes, behind which no word is an option. -/
  | divider
  | unknown
  /-- Several options begin like that. -/
  | ambiguous
  deriving DecidableEq, Repr

/-- A word cut at its first equals sign. -/
def cutValue (word : String) : String × Option String :=
  let cs := word.toList
  match cs.dropWhile (· ≠ '=') with
  | [] => (word, none)
  | _ :: value => (String.ofList (cs.takeWhile (· ≠ '=')), some (String.ofList value))

/-- A dash and digits, among which a point may stand that is not the last. -/
def isNegativeNumber (word : String) : Bool :=
  match word.toList with
  | '-' :: cs =>
    let whole := cs.takeWhile Text.isDigit
    match cs.dropWhile Text.isDigit with
    | [] => !whole.isEmpty
    | '.' :: fraction => !fraction.isEmpty && fraction.all Text.isDigit
    | _ => false
  | _ => false

/-- The word that a text is. -/
def Word.of (s : String) : Word :=
  if s = "--" then .divider
  else if s = "-" || !"-".isPrefixOf s then .plain s
  else match Flag.named? s with
    | some f => .flag f none
    | none =>
      let (name, value) := cutValue s
      match Flag.named? name, Flag.beginning name with
      | some f, _ => .flag f value
      | none, [f] => .flag f value
      | none, _ :: _ => .ambiguous
      | none, [] => if isNegativeNumber s || s.toList.contains ' ' then .plain s else .unknown

/-! ### Arguments -/

/-- What the options say. -/
structure Arguments where
  project : String
  uploadFolder : Option String := none
  noAi : Bool := false
  chunkSize : Option Int := none
  maxAttempts : Option Int := none
  /-- The report is printed as a document. -/
  json : Bool := false
  deriving DecidableEq, Repr, Inhabited

/-- What the options read so far say. -/
structure Draft where
  project : Option String := none
  arguments : Arguments := { project := "" }
  /-- A word was neither an option nor a value. -/
  surplus : Bool := false
  deriving DecidableEq, Repr, Inhabited

namespace Draft

/-- Give an option a value, if it takes that value. -/
def set? (d : Draft) (flag : Flag) (value : String) : Option Draft :=
  let a := d.arguments
  match flag with
  | .project => some { d with project := some value }
  | .uploadFolder => some { d with arguments := { a with uploadFolder := some value } }
  | .chunkSize =>
    (readInteger value).toOption.map fun n => { d with arguments := { a with chunkSize := some n } }
  | .maxAttempts =>
    (readInteger value).toOption.map fun n => { d with arguments := { a with maxAttempts := some n } }
  | .help | .noAi | .json => none

/-- Note an option without a value. -/
def note (d : Draft) (flag : Flag) : Draft :=
  let a := d.arguments
  match flag with
  | .noAi => { d with arguments := { a with noAi := true } }
  | .json => { d with arguments := { a with json := true } }
  | _ => d

/-- The arguments of a whole call. -/
def finish (d : Draft) : Option Arguments :=
  if d.surplus then none else d.project.map fun project => { d.arguments with project }

end Draft

/-- What the program is called for. -/
inductive Call where
  | help
  | convert (arguments : Arguments)
  /-- The words make no call. -/
  | refused
  deriving DecidableEq, Repr, Inhabited

/-- The call that further words make. -/
def Call.after (d : Draft) : List String → Call
  | [] => (d.finish.map Call.convert).getD .refused
  | word :: rest =>
    match Word.of word with
    | .divider => .refused
    | .ambiguous => .refused
    | .plain _ | .unknown => after { d with surplus := true } rest
    | .flag .help none => .help
    | .flag flag (some value) =>
      match d.set? flag value with
      | some d => after d rest
      | none => .refused
    | .flag flag none =>
      if flag.takesValue then
        match rest with
        | next :: rest =>
          match Word.of next with
          | .plain value =>
            match d.set? flag value with
            | some d => after d rest
            | none => .refused
          | _ => .refused
        | [] => .refused
      else after (d.note flag) rest

/-- The call that some words make.  The words are looked at one by one before anything is made of
them, and one that could be several options is refused. -/
def Call.of (words : List String) : Call :=
  if (words.takeWhile (· ≠ "--")).any fun word => Word.of word = .ambiguous then .refused
  else .after {} words

/-! ### Settings -/

/-- What the options say about settings; a zero says nothing. -/
def Arguments.overrides (a : Arguments) : Table Value :=
  let number := fun name (n : Option Int) => match n with
    | some n => if n = 0 then [] else [(name, Value.int n)]
    | none => []
  (if a.noAi then [("use_ai", Value.flag false)] else []) ++ number "chunk_size" a.chunkSize ++
    number "max_retries" a.maxAttempts

/-- The settings of a call, given what the file of settings holds. -/
def Arguments.settings (a : Arguments) (document : Value) : Except Misfit Settings := do
  let t := (← Configuration.conversion document).update a.overrides
  Settings.ofTable t (a.uploadFolder.getD "")

end PhpMigration.CommandLine
