/-
Writing JSON in a single line.

Only what must be escaped in a text is: quotes, backslashes and control characters.  All other
characters stand for themselves.
-/
import PhpMigration.Document.JsonText

namespace PhpMigration.Json

/-- A character inside a text, escaped if it must be. -/
def plainChar (c : Char) : List Char :=
  if c = '"' || c = '\\' then ['\\', c]
  else if c = '\n' then ['\\', 'n']
  else if c = '\r' then ['\\', 'r']
  else if c = '\t' then ['\\', 't']
  else if c = '\x08' then ['\\', 'b']
  else if c = '\x0c' then ['\\', 'f']
  else if c.toNat < 32 then unitEscape c.toNat
  else [c]

mutual

/-- A value in one line. -/
def line : Value → List Char
  | .null => "null".toList
  | .flag value => (if value then "true" else "false").toList
  | .number value => (numberText value).toList
  | .text value => '"' :: (value.toList.flatMap plainChar ++ ['"'])
  | .list items => '[' :: (", ".toList.intercalate (lines items) ++ [']'])
  | .object members => '\x7b' :: (", ".toList.intercalate (memberLines members) ++ ['\x7d'])

/-- Some values, each in one line. -/
def lines : List Value → List (List Char)
  | [] => []
  | item :: rest => line item :: lines rest

/-- Some members, each in one line. -/
def memberLines : List (String × Value) → List (List Char)
  | [] => []
  | (name, value) :: rest =>
    ('"' :: (name.toList.flatMap plainChar ++ "\": ".toList) ++ line value) :: memberLines rest

end

end PhpMigration.Json
