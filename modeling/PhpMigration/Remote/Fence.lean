/-
Code between fences in a reply.

A fence opens with three backticks and the word for a language, or no word, at the end of a
line, and closes with three backticks at the beginning of a line.  The words are tried in order
and the first fence of the first word that is found in the reply wins; a reply without a fence
is taken for code as a whole.  Blanks around the code are dropped.
-/
import PhpMigration.Text.Blank
import PhpMigration.Text.Search

namespace PhpMigration.Fence

/-- The words behind an opening fence, in the order in which they are tried. -/
def tags : List String := ["typescript", "javascript", "ts", "js", ""]

/-- What opens a fence. -/
def opening (tag : String) : List Char := "```".toList ++ tag.toList ++ ['\n']

/-- What closes a fence. -/
def closing : List Char := '\n' :: "```".toList

/-- The text up to the first closing fence, if there is one. -/
def untilClosing? : List Char → Option (List Char)
  | [] => none
  | c :: rest =>
    if closing.isPrefixOf (c :: rest) then some [] else (untilClosing? rest).map (c :: ·)

/-- The text in the first fence with the tag. -/
def fenced? (reply : List Char) (tag : String) : Option (List Char) :=
  (Text.findFrom? (opening tag) reply).bind fun found =>
    untilClosing? (found.drop (opening tag).length)

/-- The code in a reply, on lists of characters. -/
def extractChars (reply : List Char) : List Char :=
  Text.trim ((tags.findSome? (fenced? reply)).getD reply)

/-- The code in a reply. -/
def extract (reply : String) : String := String.ofList (extractChars reply.toList)

end PhpMigration.Fence
