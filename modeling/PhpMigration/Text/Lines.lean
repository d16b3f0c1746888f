/-
Lines of a text.

A line ends at a line feed, a carriage return, the two together, a vertical tab, a form feed,
one of the three larger information separators, the next-line control, or a Unicode line or
paragraph separator.  A text that ends with such a break has no empty last line.
-/

namespace PhpMigration.Text

/-- A character that ends a line by itself. -/
def isLineBreak (c : Char) : Bool :=
  let n := c.toNat
  (0x0A ≤ n && n ≤ 0x0D) || (0x1C ≤ n && n ≤ 0x1E) || n = 0x85 || n = 0x2028 || n = 0x2029

/-- The number of lines; `inLine` says that a line has begun. -/
def countLinesFrom : Bool → List Char → Nat
  | inLine, [] => if inLine then 1 else 0
  | _, '\r' :: '\n' :: rest => countLinesFrom false rest + 1
  | _, c :: rest =>
    if isLineBreak c then countLinesFrom false rest + 1 else countLinesFrom true rest

/-- The number of lines of a text. -/
def countLines (s : String) : Nat := countLinesFrom false s.toList

/-- Carriage returns, alone or before a line feed, become line feeds. -/
def unifyNewlines : List Char → List Char
  | [] => []
  | '\r' :: '\n' :: rest => '\n' :: unifyNewlines rest
  | '\r' :: rest => '\n' :: unifyNewlines rest
  | c :: rest => c :: unifyNewlines rest

/-- The text with every newline written as one line feed. -/
def withLineFeeds (s : String) : String := String.ofList (unifyNewlines s.toList)

end PhpMigration.Text
