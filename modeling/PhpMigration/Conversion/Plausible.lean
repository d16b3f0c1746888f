/-
Whether a text looks like code.

A text that is long enough and shows one of the usual signs of JavaScript or TypeScript is taken
for code.  The check is about the surface only, and nothing but a warning follows from it.
-/
import PhpMigration.Text.Blank
import PhpMigration.Text.Letter

namespace PhpMigration.Plausible

/-- A piece of a sign. -/
inductive Piece where
  | text (literal : String)
  /-- At least one blank. -/
  | blanks
  /-- Any number of blanks. -/
  | optionalBlanks
  /-- A word. -/
  | word
  deriving DecidableEq, Repr

/-- What follows the longest run of characters of a class, of which there is at least one. -/
def skipRun (isMember : Char → Bool) : List Char → Option (List Char)
  | [] => none
  | c :: rest => if isMember c then some (rest.dropWhile isMember) else none

/-- What follows the piece at the head of a text. -/
def Piece.after? : Piece → List Char → Option (List Char)
  | .text literal, cs =>
    if literal.toList.isPrefixOf cs then some (cs.drop literal.toList.length) else none
  | .blanks, cs => skipRun Text.isBlank cs
  | .optionalBlanks, cs => some (cs.dropWhile Text.isBlank)
  | .word, cs => skipRun Text.isWord cs

/-- A sign: pieces one directly behind the other. -/
abbrev Sign := List Piece

/-- The sign stands at the head of the text. -/
def Sign.heads (sign : Sign) (cs : List Char) : Bool :=
  (sign.foldlM (fun cs (piece : Piece) => piece.after? cs) cs).isSome

/-- The sign stands somewhere in the text. -/
def Sign.occursIn (sign : Sign) : List Char → Bool
  | [] => sign.heads []
  | c :: rest => sign.heads (c :: rest) || sign.occursIn rest

/-- The usual signs of code. -/
def signs : List Sign :=
  [[.text "function", .blanks, .word, .optionalBlanks, .text "("],
    [.text "const", .blanks, .word, .optionalBlanks, .text "="],
    [.text "let", .blanks, .word, .optionalBlanks, .text "="],
    [.text "var", .blanks, .word, .optionalBlanks, .text "="],
    [.text "import", .blanks],
    [.text "export", .blanks],
    [.text "class", .blanks, .word],
    [.text "interface", .blanks, .word],
    [.text "console.log"],
    [.text "return", .blanks],
    [.text "if", .optionalBlanks, .text "("],
    [.text "for", .optionalBlanks, .text "("],
    [.text "while", .optionalBlanks, .text "("]]

/-- Fewer characters than these are no code. -/
def minLength : Nat := 10

/-- The text looks like code. -/
def looksLikeCode (content : String) : Bool :=
  let trimmed := Text.trim content.toList
  decide (minLength ≤ trimmed.length) && signs.any fun sign => sign.occursIn trimmed

end PhpMigration.Plausible
