/-
String literals in single quotes.

A literal is made from a text that is written down in double quotes: the quotes at its ends are
exchanged, the double quotes between them lose the backslash that they are escaped by, and the
single ones are given one.  Where some other value stands in place of a text, it is written down in
one line, and what is exchanged are its first and last characters.
-/
import PhpMigration.Document.JsonLine
import PhpMigration.Text.Search

namespace PhpMigration.JavaScript.Quoted

/-- Double quotes lose their backslash, and single quotes are given one. -/
def requote (cs : List Char) : List Char :=
  Text.replaceAll ['\''] ['\\', '\''] (Text.replaceAll ['\\', '"'] ['"'] cs)

/-- The literal for what stands in place of a text. -/
def quoteValue (v : Value) : String :=
  String.ofList ('\'' :: (requote ((Json.line v).drop 1).dropLast ++ ['\'']))

/-- The literal that denotes a text. -/
def quote (s : String) : String := quoteValue (.text s)

end PhpMigration.JavaScript.Quoted
