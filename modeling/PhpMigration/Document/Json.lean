/-
Reading JSON.

The reader takes what the standard allows and the words for the three numbers that are not
finite.  A name that an object gives twice keeps its first place and its last value.  What
follows the value must be blank.

The depth of a text is bounded by its length, and so is the number of values in it, so a count of
steps as large as the length never runs out.
-/
import PhpMigration.Document.Value

namespace PhpMigration.Json

/-- The four blanks of JSON. -/
def isSpace (c : Char) : Bool := c = ' ' || c = '\t' || c = '\n' || c = '\r'

/-- The text without the blanks before it. -/
def skipSpace (cs : List Char) : List Char := cs.dropWhile isSpace

/-- The value of a hexadecimal digit. -/
def hexValue? (c : Char) : Option Nat :=
  if c.isDigit then some (c.toNat - 48)
  else if 'a' ≤ c && c ≤ 'f' then some (c.toNat - 87)
  else if 'A' ≤ c && c ≤ 'F' then some (c.toNat - 55)
  else none

/-- Four hexadecimal digits at the head of a text. -/
def hexCode? : List Char → Option (Nat × List Char)
  | a :: b :: c :: d :: rest => do
    let a ← hexValue? a
    let b ← hexValue? b
    let c ← hexValue? c
    let d ← hexValue? d
    pure (((a * 16 + b) * 16 + c) * 16 + d, rest)
  | _ => none

/-- A code unit that begins a pair. -/
def isHigh (unit : Nat) : Bool := 0xD800 ≤ unit && unit < 0xDC00

/-- A code unit that ends a pair. -/
def isLow (unit : Nat) : Bool := 0xDC00 ≤ unit && unit < 0xE000

/-- The character of an escaped code unit, and what follows; the second half of a pair is taken
too, and half a pair becomes a replacement character. -/
def unitChar (unit : Nat) (rest : List Char) : Char × List Char :=
  match rest with
  | '\\' :: 'u' :: more =>
    match hexCode? more with
    | some (low, after) =>
      if isHigh unit && isLow low then
        (Char.ofNat (0x10000 + (unit - 0xD800) * 0x400 + (low - 0xDC00)), after)
      else (if isHigh unit || isLow unit then Char.ofNat 0xFFFD else Char.ofNat unit, rest)
    | none => (if isHigh unit || isLow unit then Char.ofNat 0xFFFD else Char.ofNat unit, rest)
  | _ => (if isHigh unit || isLow unit then Char.ofNat 0xFFFD else Char.ofNat unit, rest)

/-- What a backslash and a letter stand for. -/
def simpleEscape? : Char → Option Char
  | '"' => some '"'
  | '\\' => some '\\'
  | '/' => some '/'
  | 'b' => some '\x08'
  | 'f' => some '\x0c'
  | 'n' => some '\n'
  | 'r' => some '\r'
  | 't' => some '\t'
  | _ => none

/-- A text up to its closing quote, and what follows. -/
def readText : Nat → List Char → Option (List Char × List Char)
  | 0, _ | _, [] => none
  | fuel + 1, '\\' :: 'u' :: rest => do
    let (unit, rest) ← hexCode? rest
    let (c, rest) := unitChar unit rest
    let (more, rest) ← readText fuel rest
    pure (c :: more, rest)
  | fuel + 1, '\\' :: e :: rest => do
    let c ← simpleEscape? e
    let (more, rest) ← readText fuel rest
    pure (c :: more, rest)
  | _ + 1, '"' :: rest => some ([], rest)
  | fuel + 1, c :: rest =>
    if c.toNat < 0x20 then none
    else do
      let (more, rest) ← readText fuel rest
      pure (c :: more, rest)

/-- A fraction at the head of a text: a point and at least one digit. -/
def takeFraction : List Char → List Char × List Char
  | '.' :: rest =>
    match rest.takeWhile Char.isDigit with
    | [] => ([], '.' :: rest)
    | digits => ('.' :: digits, rest.dropWhile Char.isDigit)
  | cs => ([], cs)

/-- An exponent at the head of a text: its letter, a sign or none, and at least one digit. -/
def takeExponent : List Char → List Char × List Char
  | c :: rest =>
    if c = 'e' || c = 'E' then
      let (sign, digits) := match rest with
        | '+' :: more => (['+'], more)
        | '-' :: more => (['-'], more)
        | more => ([], more)
      match digits.takeWhile Char.isDigit with
      | [] => ([], c :: rest)
      | ds => (c :: sign ++ ds, digits.dropWhile Char.isDigit)
    else ([], c :: rest)
  | [] => ([], [])

/-- A number without its sign: a zero, or digits that do not begin with one, and then perhaps a
fraction and an exponent.  An integer has no more digits than can be read. -/
def readNumber (negative : Bool) (cs : List Char) : Option (Value × List Char) :=
  let whole := match cs with
    | '0' :: _ => ['0']
    | cs => cs.takeWhile Char.isDigit
  if whole.isEmpty then none
  else
    let (fraction, rest) := takeFraction (cs.drop whole.length)
    let (exponent, rest) := takeExponent rest
    let sign := if negative then ['-'] else []
    if fraction.isEmpty && exponent.isEmpty then
      if digitLimit < whole.length then none
      else
        let n := Double.ofDigits 10 (whole.map fun c => c.toNat - 48)
        some (.int (if negative then -n else n), rest)
    else
      (Double.ofText? (String.ofList (sign ++ whole ++ fraction ++ exponent))).map fun d =>
        (.number (.double d), rest)

/-- The words that stand for values. -/
def words : List (String × Value) :=
  [("null", .null), ("true", .flag true), ("false", .flag false),
    ("NaN", .number (.double .nan)), ("Infinity", .number (.double (.infinite false))),
    ("-Infinity", .number (.double (.infinite true)))]

/-- A word at the head of a text. -/
def readWord (cs : List Char) : Option (Value × List Char) :=
  words.findSome? fun (word, value) =>
    if word.toList.isPrefixOf cs then some (value, cs.drop word.length) else none

mutual

/-- A value at the head of a text. -/
def readValue : Nat → List Char → Option (Value × List Char)
  | 0, _ => none
  | fuel + 1, cs =>
    match readWord cs with
    | some found => some found
    | none =>
      match cs with
      | '"' :: rest => do
        let (text, rest) ← readText (rest.length + 1) rest
        pure (.text (String.ofList text), rest)
      | '[' :: rest =>
        match skipSpace rest with
        | ']' :: rest => some (.list [], rest)
        | rest => do
          let (items, rest) ← readItems fuel rest
          pure (.list items, rest)
      | '\x7b' :: rest =>
        match skipSpace rest with
        | '\x7d' :: rest => some (.object [], rest)
        | rest => do
          let (members, rest) ← readMembers fuel [] rest
          pure (.object members, rest)
      | '-' :: rest => readNumber true rest
      | cs => readNumber false cs

/-- The items of a list up to its closing bracket. -/
def readItems : Nat → List Char → Option (List Value × List Char)
  | 0, _ => none
  | fuel + 1, cs => do
    let (item, rest) ← readValue fuel cs
    match skipSpace rest with
    | ',' :: rest => do
      let (more, rest) ← readItems fuel (skipSpace rest)
      pure (item :: more, rest)
    | ']' :: rest => pure ([item], rest)
    | _ => none

/-- The members of an object up to its closing brace, filed with those before them. -/
def readMembers : Nat → Table Value → List Char → Option (Table Value × List Char)
  | 0, _, _ => none
  | fuel + 1, before, cs =>
    match cs with
    | '"' :: rest => do
      let (name, rest) ← readText (rest.length + 1) rest
      match skipSpace rest with
      | ':' :: rest => do
        let (value, rest) ← readValue fuel (skipSpace rest)
        let members := before.set (String.ofList name) value
        match skipSpace rest with
        | ',' :: rest => readMembers fuel members (skipSpace rest)
        | '\x7d' :: rest => pure (members, rest)
        | _ => none
      | _ => none
    | _ => none

end

/-- The value that a text is. -/
def read? (s : String) : Option Value :=
  match readValue (2 * s.length + 2) (skipSpace s.toList) with
  | some (value, rest) => if (skipSpace rest).isEmpty then some value else none
  | none => none

end PhpMigration.Json
