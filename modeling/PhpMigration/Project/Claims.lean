/-
Claims to output paths.

A path is held by one file, and a file holds one path.  A file that claims a path again is given
the one it holds; a first claim to a path that another file holds gets a number from two on
before the suffix, the least that makes it free.
-/
import PhpMigration.Table

namespace PhpMigration

/-- The paths that are held, with the files that hold them. -/
abbrev Claims := Table String

namespace Claims

/-- The path that a file holds. -/
def heldBy? (c : Claims) (file : String) : Option String :=
  (List.find? (fun entry => entry.2 = file) c).map (·.1)

/-- A path cut before its last dot; a path without a dot is all suffix. -/
def cutSuffix (path : String) : String × String :=
  let back := path.toList.reverse
  let suffix := back.takeWhile (· ≠ '.')
  match back.dropWhile (· ≠ '.') with
  | [] => ("", path)
  | _ :: stem => (String.ofList stem.reverse, "." ++ String.ofList suffix.reverse)

/-- The path with a number before its suffix. -/
def numbered (path : String) (n : Nat) : String :=
  let (stem, suffix) := cutSuffix path
  stem ++ toString n ++ suffix

/-- The first free path from number `n` on, if there is one among so many. -/
def firstFree? (c : Claims) (path : String) : (tries n : Nat) → Option String
  | 0, _ => none
  | tries + 1, n =>
    if Table.has c (numbered path n) then firstFree? c path tries (n + 1)
    else some (numbered path n)

/-- A path that is free: the path itself, or the path with the least number that makes it so.  One
of as many numbers as there are claims, and one more, is free. -/
def free (c : Claims) (path : String) : String :=
  if Table.has c path then (firstFree? c path (c.length + 1) 2).getD path else path

/-- The path that a file is given when it claims one. -/
def claim (file path : String) (c : Claims) : String × Claims :=
  match c.heldBy? file with
  | some held => (held, c)
  | none => (c.free path, Table.set (c.free path) file c)

end Claims

end PhpMigration
