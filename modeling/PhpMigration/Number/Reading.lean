/-
Reading numbers from their decimal texts.

White space may surround the number.  A sign, digits, a point with more digits and an exponent make
up a number, one of the two runs of digits being enough; an underscore may stand between two
digits, and a digit may be of any script.  The words `inf`, `infinity` and `nan` are read
whatever their case.  The result is the double nearest to the exact decimal value.  An integer is
read in the same way, from a sign and digits alone, of which there is a largest number.
-/
import PhpMigration.Number.Shortest
import PhpMigration.Text.Blank
import PhpMigration.Text.Cited
import PhpMigration.Text.Letter

namespace PhpMigration

open Text

namespace Double

/-- A run of digits at the head of a text: their values, and what follows.  An underscore is
passed over when a digit stands on either side of it. -/
def digitRun : Bool → List Char → List Nat × List Char
  | _, [] => ([], [])
  | afterDigit, c :: rest =>
    match digitValue? c with
    | some v => let (more, after) := digitRun true rest; (v :: more, after)
    | none =>
      if c = '_' && afterDigit && ((rest.head?.map isDigit).getD false) then digitRun false rest
      else ([], c :: rest)

/-- The number that some digits denote. -/
def ofDigits (base : Nat) (digits : List Nat) : Nat := digits.foldl (fun n d => n * base + d) 0

/-- A sign at the head of a text. -/
def takeSign : List Char → Bool × List Char
  | '-' :: rest => (true, rest)
  | '+' :: rest => (false, rest)
  | cs => (false, cs)

/-- Beyond this many places before or behind the point every double is zero or infinite. -/
def exponentLimit : Int := 400

/-- The double nearest to `± digits · 10 ^ exponent`. -/
def ofDecimal (negative : Bool) (digits : Nat) (exponent : Int) : Double :=
  let leading := exponent + (Nat.toDigits 10 digits).length
  if digits = 0 then .finite negative 0 minExponent
  else if exponentLimit < leading then .infinite negative
  else if leading < -exponentLimit then .finite negative 0 minExponent
  else
    let (up, down) := powerOfTen exponent
    ofRatio negative (digits * up) down

/-- An exponent at the head of a text, zero if there is none. -/
def takeExponent : List Char → Int × List Char
  | c :: rest =>
    if c = 'e' || c = 'E' then
      let (negative, digits) := takeSign rest
      match digitRun false digits with
      | ([], _) => (0, c :: rest)
      | (ds, after) => (signed negative (ofDigits 10 ds), after)
    else (0, c :: rest)
  | [] => (0, [])

/-- A decimal number that makes up the whole text. -/
def ofPlainText? (negative : Bool) (cs : List Char) : Option Double :=
  let (whole, rest) := digitRun false cs
  let (fraction, rest) := match rest with
    | '.' :: more => digitRun false more
    | _ => ([], rest)
  let (exponent, rest) := takeExponent rest
  if whole.isEmpty && fraction.isEmpty || !rest.isEmpty then none
  else some (ofDecimal negative (ofDigits 10 (whole ++ fraction)) (exponent - fraction.length))

/-- The double that a text denotes, if it denotes one. -/
def ofText? (s : String) : Option Double :=
  let (negative, body) := takeSign (trimSpace s.toList)
  let word := body.map Char.toLower
  if word = "inf".toList || word = "infinity".toList then some (.infinite negative)
  else if word = "nan".toList then some .nan
  else ofPlainText? negative body

end Double

/-- Why a text is not read as an integer. -/
inductive Misread where
  /-- The text denotes no integer of the base. -/
  | noInteger (base : Nat) (text : String)
  /-- The text has so many digits. -/
  | tooManyDigits (count : Nat)
  deriving DecidableEq, Repr, Inhabited

/-- No integer with more digits is read or written. -/
def digitLimit : Nat := 4300

/-- The integer has no more digits than may be written. -/
def isShort (n : Int) : Bool := (Nat.toDigits 10 n.natAbs).length ≤ digitLimit

/-- No more of a text is cited that denotes no integer. -/
def citedLength : Nat := 200

/-- What is said of an integer that is too long. -/
def digitLimitMessage (detail : String) : String :=
  s!"Exceeds the limit ({digitLimit} digits) for integer string conversion{detail}; " ++
    "use sys.set_int_max_str_digits() to increase the limit"

/-- The wording of a misread text. -/
def Misread.message : Misread → String
  | .noInteger base text =>
    s!"invalid literal for int() with base {base}: " ++
      String.ofList ((cite text).toList.take citedLength)
  | .tooManyDigits count => digitLimitMessage s!": value has {count} digits"

/-- The integer that a text denotes: a sign and digits, among white space.  The digits are counted
before what follows them is looked at. -/
def readInteger (s : String) : Except Misread Int :=
  let (negative, body) := Double.takeSign (trimSpace s.toList)
  match Double.digitRun false body with
  | ([], _) | (_, '_' :: _) => throw (.noInteger 10 s)
  | (digits, rest) =>
    if digitLimit < digits.length then throw (.tooManyDigits digits.length)
    else if rest.isEmpty then pure (Double.signed negative (Double.ofDigits 10 digits))
    else throw (.noInteger 10 s)

end PhpMigration
