/-
Texts as messages cite them.

A cited text stands between single quotes, or between double quotes if it holds a single quote
and no double one.  Inside, the backslash and the quote are escaped, and so is every character
that cannot be printed.
-/
import PhpMigration.Text.Printable

namespace PhpMigration.Text

/-- The last digits of a number in hexadecimal. -/
def hexDigits : Nat → Nat → List Char
  | 0, _ => []
  | width + 1, n => hexDigits width (n / 16) ++ [Nat.digitChar (n % 16)]

/-- A character inside a cited text. -/
def citeChar (quote c : Char) : List Char :=
  if c = quote || c = '\\' then ['\\', c]
  else if c = '\n' then ['\\', 'n']
  else if c = '\r' then ['\\', 'r']
  else if c = '\t' then ['\\', 't']
  else if isPrintable c then [c]
  else if c.toNat < 0x100 then '\\' :: 'x' :: hexDigits 2 c.toNat
  else if c.toNat < 0x10000 then '\\' :: 'u' :: hexDigits 4 c.toNat
  else '\\' :: 'U' :: hexDigits 8 c.toNat

/-- The quote around a cited text. -/
def citeQuote (cs : List Char) : Char :=
  if cs.contains '\'' && !cs.contains '"' then '"' else '\''

/-- The text as messages cite it. -/
def cite (s : String) : String :=
  let quote := citeQuote s.toList
  String.ofList (quote :: s.toList.flatMap (citeChar quote) ++ [quote])

end PhpMigration.Text
