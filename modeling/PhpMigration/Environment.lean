/-
Variables of the environment, and texts that speak of them.

In a text a name between braces behind a dollar sign stands for the variable of that name.  A
default may follow the name behind a colon and a dash; without one, a variable that is not set
leaves the text as it stands.
-/
import PhpMigration.Table
import PhpMigration.Text.Search

namespace PhpMigration

/-- The variables that are set. -/
abbrev Environment := Table String

namespace Environment

/-- A name and the default behind it, if there is one. -/
def splitDefault : List Char → List Char × Option (List Char)
  | ':' :: '-' :: default => ([], some default)
  | [] => ([], none)
  | c :: rest => let (name, default) := splitDefault rest; (c :: name, default)

/-- What stands between the braces at the head of a text, if anything does. -/
def reference? : List Char → Option (List Char)
  | '$' :: '\x7b' :: rest =>
    let inner := rest.takeWhile (· ≠ '\x7d')
    if inner.isEmpty || inner.length = rest.length then none else some inner
  | _ => none

/-- What a reference stands for. -/
def resolve (env : Environment) (inner : List Char) : List Char :=
  let (name, default) := splitDefault inner
  match Table.find? env (String.ofList name), default with
  | some value, _ => value.toList
  | none, some default => default
  | none, none => '$' :: '\x7b' :: inner ++ ['\x7d']

/-- The text with `skip` characters of the last reference still to be passed over. -/
def expandFrom (env : Environment) : Nat → List Char → List Char
  | _, [] => []
  | skip + 1, _ :: rest => expandFrom env skip rest
  | 0, c :: rest =>
    match reference? (c :: rest) with
    | some inner => env.resolve inner ++ expandFrom env (inner.length + 2) rest
    | none => c :: expandFrom env 0 rest

/-- The text with every reference replaced by what it stands for. -/
def expand (env : Environment) (s : String) : String := String.ofList (expandFrom env 0 s.toList)

end Environment

end PhpMigration
