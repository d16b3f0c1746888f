/-
Values as plain text, the way a chat shows what was not written as text.

A text stands as it is; inside a list or an object it is cited.  Nothing and the truth values
are written as words with a capital.  An integer is written whatever its length; whether a value
holds one that is too long is asked where it matters.
-/
import PhpMigration.Document.Value
import PhpMigration.Text.Cited

namespace PhpMigration.Value

/-- The word for a truth value. -/
def truthWord (b : Bool) : String := if b then "True" else "False"

/-- A number. -/
def shownNumber : Numeral → String
  | .int n => toString n
  | .truth b => truthWord b
  | .double d => d.toText

mutual

/-- A value inside a list or an object. -/
def cited : Value → String
  | .null => "None"
  | .flag b => truthWord b
  | .number x => shownNumber x
  | .text s => Text.cite s
  | .list items => "[" ++ ", ".intercalate (citedItems items) ++ "]"
  | .object members => "\x7b" ++ ", ".intercalate (citedMembers members) ++ "\x7d"

/-- The items of a list. -/
def citedItems : List Value → List String
  | [] => []
  | item :: rest => item.cited :: citedItems rest

/-- The members of an object. -/
def citedMembers : List (String × Value) → List String
  | [] => []
  | (name, value) :: rest => (Text.cite name ++ ": " ++ value.cited) :: citedMembers rest

end

/-- The value as plain text. -/
def shown : Value → String
  | .text s => s
  | v => v.cited

mutual

/-- The value holds no integer that is too long to be written. -/
def isWritable : Value → Bool
  | .null | .flag _ | .text _ => true
  | .number x => x.isWritable
  | .list items => itemsWritable items
  | .object members => membersWritable members

/-- The same for the items of a list. -/
def itemsWritable : List Value → Bool
  | [] => true
  | item :: rest => item.isWritable && itemsWritable rest

/-- The same for the members of an object. -/
def membersWritable : List (String × Value) → Bool
  | [] => true
  | (_, value) :: rest => value.isWritable && membersWritable rest

end

end PhpMigration.Value
