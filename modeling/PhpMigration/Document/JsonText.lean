/-
Writing JSON, one member or item a line.

Only ASCII is written: every other character is escaped, one outside the first plane as a pair.
Empty lists and objects stay on their line.
-/
import PhpMigration.Document.Value
import PhpMigration.Text.Cited

namespace PhpMigration.Json

/-- A code unit as an escape. -/
def unitEscape (unit : Nat) : List Char := '\\' :: 'u' :: Text.hexDigits 4 unit

/-- A character inside a text. -/
def charText (c : Char) : List Char :=
  if c = '"' || c = '\\' then ['\\', c]
  else if c = '\n' then ['\\', 'n']
  else if c = '\r' then ['\\', 'r']
  else if c = '\t' then ['\\', 't']
  else if c = '\x08' then ['\\', 'b']
  else if c = '\x0c' then ['\\', 'f']
  else if ' ' ≤ c && c ≤ '~' then [c]
  else if c.toNat < 0x10000 then unitEscape c.toNat
  else
    let n := c.toNat - 0x10000
    unitEscape (0xD800 + n / 0x400) ++ unitEscape (0xDC00 + n % 0x400)

/-- A text between quotes. -/
def quoted (s : String) : String := String.ofList ('"' :: s.toList.flatMap charText ++ ['"'])

/-- A number; the words for those that are not finite are those that the reader takes. -/
def numberText : Numeral → String
  | .int n => toString n
  | .truth b => if b then "true" else "false"
  | .double .nan => "NaN"
  | .double (.infinite negative) => if negative then "-Infinity" else "Infinity"
  | .double d => d.toText

/-- The beginning of a line of the given depth. -/
def newLine (depth : Nat) : String := String.ofList ('\n' :: List.replicate (2 * depth) ' ')

/-- Lines between brackets. -/
def bracketed (opening closing : String) (depth : Nat) (lines : List String) : String :=
  if lines.isEmpty then opening ++ closing
  else opening ++ newLine (depth + 1) ++ ("," ++ newLine (depth + 1)).intercalate lines ++
    newLine depth ++ closing

mutual

/-- The text of a value whose brackets close at the given depth. -/
def textAt (depth : Nat) : Value → String
  | .null => "null"
  | .flag value => if value then "true" else "false"
  | .number value => numberText value
  | .text value => quoted value
  | .list items => bracketed "[" "]" depth (itemTexts (depth + 1) items)
  | .object members => bracketed "\x7b" "\x7d" depth (memberTexts (depth + 1) members)

/-- The texts of the items of a list. -/
def itemTexts (depth : Nat) : List Value → List String
  | [] => []
  | item :: rest => textAt depth item :: itemTexts depth rest

/-- The texts of the members of an object. -/
def memberTexts (depth : Nat) : List (String × Value) → List String
  | [] => []
  | (name, value) :: rest => (quoted name ++ ": " ++ textAt depth value) :: memberTexts depth rest

end

/-- The text of a value. -/
def write (v : Value) : String := textAt 0 v

end PhpMigration.Json
