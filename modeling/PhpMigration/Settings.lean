/-
What a conversion of projects can be told.

The settings are read from a table of values, in which a number may also be written as a text.  At
least one file is converted at a time, and every file is tried at least once.  A value that is of
no use for finding or writing files is a fault only when files are found or written.
-/
import PhpMigration.Document.Need
import PhpMigration.Path
import PhpMigration.Retry
import PhpMigration.Text.Case

namespace PhpMigration

/-- Why a setting is of no use when it is needed. -/
inductive SettingsFault where
  /-- It cannot be gone through. -/
  | noItems (value : Value)
  /-- A suffix is no text. -/
  | noSuffix (value : Value)
  /-- What has items or members cannot be the name of a folder. -/
  | noName (value : Value)
  /-- The folder of the output is no text. -/
  | noFolder (value : Value)
  deriving DecidableEq, Repr, Inhabited

/-- What messages call a value. -/
def Value.kindName : Value → String
  | .null => "NoneType"
  | .flag _ | .number (.truth _) => "bool"
  | .number (.int _) => "int"
  | .number (.double _) => "float"
  | .text _ => "str"
  | .list _ => "list"
  | .object _ => "dict"

/-- The name that messages call a value by, between quotes. -/
def Value.citedKind (v : Value) : String := "'" ++ v.kindName ++ "'"

/-- The wording of a fault. -/
def SettingsFault.message : SettingsFault → String
  | .noItems v => v.citedKind ++ " object is not iterable"
  | .noSuffix v => v.citedKind ++ " object has no attribute 'lower'"
  | .noName v => "unhashable type: " ++ v.citedKind
  | .noFolder v => "unsupported operand type(s) for /: 'PosixPath' and " ++ v.citedKind

/-- The settings. -/
structure Settings where
  /-- A remote service may be asked. -/
  useAi : Bool
  /-- The files that are converted at a time. -/
  chunkSize : Nat
  /-- The attempts at a file before it counts as failed. -/
  maxAttempts : Nat
  /-- The wait after a first attempt, which grows with every further one. -/
  baseDelay : Double
  /-- The folder that holds all projects. -/
  uploadFolder : String
  /-- The folder of a project that its output goes to. -/
  outputName : Except SettingsFault String
  /-- The suffixes of source files, in small letters. -/
  suffixes : Except SettingsFault (List String)
  /-- The folders that are passed over: those that are left out, and the one of the output. -/
  skipped : Except SettingsFault (List String)
  chunkSize_pos : 0 < chunkSize
  maxAttempts_pos : 0 < maxAttempts

namespace Settings

/-- A count that is one at least. -/
def atLeastOne (n : Int) : { n : Nat // 0 < n } := ⟨max n.toNat 1, by omega⟩

/-- The items of a setting that can be gone through. -/
def itemsOf (v : Value) : Except SettingsFault (List Value) :=
  v.needItems.mapError fun _ => .noItems v

/-- A suffix in small letters. -/
def suffixOf : Value → Except SettingsFault String
  | .text s => pure (Text.lower s)
  | v => throw (.noSuffix v)

/-- The name of a folder that a value is, if it is one; it may be anything that never changes. -/
def nameOf? : Value → Except SettingsFault (Option String)
  | .list items => throw (.noName (.list items))
  | .object members => throw (.noName (.object members))
  | v => pure v.text?

/-- The name of the folder of the output. -/
def folderName : Value → Except SettingsFault String
  | .text s => pure s
  | v => throw (.noFolder v)

/-- The names of the folders that are passed over. -/
def skippedNames (excluded output : Value) : Except SettingsFault (List String) := do
  let names ← (← itemsOf excluded).mapM nameOf?
  return ((← nameOf? output) :: names).filterMap id

/-- The settings that a table holds.  The folder that holds all projects may be given beside the
table, and then the table is not asked for it. -/
def ofTable (t : Table Value) (uploadFolder : String := "") : Except Misfit Settings := do
  let value := fun name => (Table.find? t name).getD .null
  let uploadFolder ←
    if uploadFolder.isEmpty then (value "upload_dir").needText else pure uploadFolder
  let chunkSize := atLeastOne (← (value "chunk_size").needInteger)
  let maxAttempts := atLeastOne (← (value "max_retries").needInteger)
  let baseDelay ← (value "retry_base_delay_seconds").needDouble
  pure
    { useAi := (value "use_ai").isGiven
      chunkSize := chunkSize.val
      maxAttempts := maxAttempts.val
      baseDelay, uploadFolder
      outputName := folderName (value "output_dir_name")
      suffixes := itemsOf (value "source_extensions") >>= fun items => items.mapM suffixOf
      skipped := skippedNames (value "exclude_dirs") (value "output_dir_name")
      chunkSize_pos := chunkSize.property
      maxAttempts_pos := maxAttempts.property }

/-- Every failed attempt calls for another one. -/
def retryPolicy (s : Settings) {ε : Type} : Retry.Policy ε :=
  { maxAttempts := s.maxAttempts
    retryable := fun _ => true
    delay := fun attempt => Retry.linearBackoff (.double s.baseDelay) (.int attempt) }

end Settings

end PhpMigration
