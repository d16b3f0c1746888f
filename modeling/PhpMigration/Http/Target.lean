/-
The target of a request.

A target ends before a question mark or a number sign.  A scheme may stand before its path, and
behind two slashes a host; both are passed over, and what is left is read the same way once more.
A percent sign with two hexadecimal digits stands for a byte; bytes that spell no text are
replaced, and only then is the path cut at its slashes.  So an escaped slash cuts like any other,
while dots mean nothing.
-/
import PhpMigration.Document.Json
import PhpMigration.Text.Search
import PhpMigration.Text.Utf8

namespace PhpMigration.Http

/-- The bytes of a text with its escapes taken back; a percent sign without two digits stays. -/
def unescape : List Char → List UInt8
  | [] => []
  | '%' :: high :: low :: rest =>
    match Json.hexValue? high, Json.hexValue? low with
    | some h, some l => UInt8.ofNat (16 * h + l) :: unescape rest
    | _, _ => '%'.toUInt8 :: unescape (high :: low :: rest)
  | c :: rest => (Text.Utf8.encode (String.singleton c)).toList ++ unescape rest

/-- A character that a scheme may hold. -/
def isSchemeChar (c : Char) : Bool := c.isAlphanum || c = '+' || c = '-' || c = '.'

/-- What follows the scheme of a target, which begins with a letter and ends at a colon. -/
def withoutScheme (cs : List Char) : List Char :=
  match cs.dropWhile isSchemeChar with
  | ':' :: rest => if cs.head?.any Char.isAlpha then rest else cs
  | _ => cs

/-- What follows the host of a target, which begins behind two slashes. -/
def withoutHost : List Char → List Char
  | '/' :: '/' :: rest => rest.dropWhile fun c => c ≠ '/' ∧ c ≠ '?' ∧ c ≠ '#'
  | cs => cs

/-- The path in a target; blanks before it and all tabs and ends of lines are passed over. -/
def pathIn (cs : List Char) : List Char :=
  let cs := (cs.dropWhile fun c => c.toNat ≤ 0x20).filter fun c => c ∉ ['\t', '\r', '\n']
  (withoutHost (withoutScheme cs)).takeWhile fun c => c ≠ '?' ∧ c ≠ '#'

/-- The part of a target that names a resource. -/
def rawPath (target : String) : List Char := pathIn (pathIn target.toList)

/-- The path of a target, without the slashes before it. -/
def pathOf (target : String) : List Char :=
  (Text.Utf8.decodeLenient ⟨(unescape (rawPath target)).toArray⟩).toList.dropWhile (· = '/')

/-- The segments of a path. -/
def segments (path : List Char) : List String := (Text.splitAt '/' path).map String.ofList

/-- The path with one slash for all that stand in a row. -/
def mergeSlashes : List Char → List Char
  | '/' :: '/' :: rest => mergeSlashes ('/' :: rest)
  | c :: rest => c :: mergeSlashes rest
  | [] => []

end PhpMigration.Http
