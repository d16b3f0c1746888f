/-
The bodies of requests.

A body counts only if it is said to be a JSON document and is one.  How wide its units are is seen
from the null bytes at its beginning; where there are none it is read as it stands, and one mark
may stand before it.
-/
import PhpMigration.Document.Json
import PhpMigration.Document.Need
import PhpMigration.Text.Blank
import PhpMigration.Text.Case
import PhpMigration.Text.Utf8
import PhpMigration.Text.Wide

namespace PhpMigration.Http

/-- A request. -/
structure Request where
  method : String
  target : String
  contentType : String := ""
  body : String := ""
  deriving DecidableEq, Repr, Inhabited

/-- The content is said to be a JSON document. -/
def saysJson (contentType : String) : Bool :=
  let essence :=
    Text.lower (Text.strip (String.ofList (contentType.toList.takeWhile (· ≠ ';'))))
  essence = "application/json" || "application/".isPrefixOf essence && essence.endsWith "+json"

/-- The mark that may stand before a document. -/
def documentMark : Char := Char.ofNat 0xFEFF

/-- The text of a body in units of one byte. -/
def narrowText (body : String) : String :=
  match body.toList with
  | first :: rest => if first = documentMark then String.ofList rest else body
  | [] => body

/-- The text of a body, if its units are whole. -/
def bodyText? (body : String) : Option String :=
  let bytes := (Text.Utf8.encode body).toList
  match bytes with
  | 0 :: second :: _ :: _ :: _ =>
    if second = 0 then Text.Wide.decode32? true bytes else Text.Wide.decode16? true bytes
  | _ :: 0 :: third :: fourth :: _ =>
    if third = 0 && fourth = 0 then Text.Wide.decode32? false bytes
    else Text.Wide.decode16? false bytes
  | [0, _] => Text.Wide.decode16? true bytes
  | [_, 0] => Text.Wide.decode16? false bytes
  | _ => some (narrowText body)

/-- The document in a body. -/
def readBody (body : String) : Option Value := (bodyText? body).bind Json.read?

/-- The document that a request brings, if it says so. -/
def Request.given? (r : Request) : Option Value :=
  if saysJson r.contentType then readBody r.body else none

end PhpMigration.Http
