/-
Reading configuration files: documents laid out by indentation.

A line is a member `name: value`, an item `- value`, or a plain scalar; a value that is left out
is the block of deeper lines below, or nothing.  Comments begin with a number sign that stands at
the beginning of a line or behind a blank.  A document that breaks these rules, or indents by
tabs, has no value at all.

A plain scalar is nothing, a truth value, a number or a text, by its spelling.  A number with an
exponent needs a point, and the exponent a sign.
-/
import PhpMigration.Document.Value
import PhpMigration.Text.Blank
import PhpMigration.Text.Search

namespace PhpMigration.Block

/-! ### Scalars -/

/-- The spellings of a truth value. -/
def truthWords : List (String × Bool) :=
  [("true", true), ("True", true), ("TRUE", true), ("yes", true), ("Yes", true), ("YES", true),
    ("on", true), ("On", true), ("ON", true), ("false", false), ("False", false),
    ("FALSE", false), ("no", false), ("No", false), ("NO", false), ("off", false),
    ("Off", false), ("OFF", false)]

/-- The spellings of nothing. -/
def nullWords : List String := ["", "~", "null", "Null", "NULL"]

/-- Digits of a base, among which underscores may stand. -/
def digits? (base : Nat) (cs : List Char) : Option Nat :=
  let ds := cs.filter (· ≠ '_')
  let values := ds.map fun c =>
    if c.isDigit then c.toNat - 48
    else if c.isLower then c.toNat - 87
    else if c.isUpper then c.toNat - 55
    else base
  if ds.isEmpty || values.any (base ≤ ·) then none else some (Double.ofDigits base values)

/-- An integer without its sign. -/
def natural? : List Char → Option Nat
  | '0' :: 'b' :: ds => digits? 2 ds
  | '0' :: 'x' :: ds => digits? 16 ds
  | ['0'] => some 0
  | '0' :: ds => digits? 8 ds
  | c :: ds => if c = '_' then none else digits? 10 (c :: ds)
  | [] => none

/-- A number with a point and perhaps a signed exponent. -/
def decimal? (cs : List Char) : Option Double :=
  let isPart := fun (c : Char) => c.isDigit || c = '_'
  let whole := cs.takeWhile isPart
  match cs.dropWhile isPart with
  | '.' :: rest =>
    let fraction := rest.takeWhile isPart
    let exponent := rest.dropWhile isPart
    let wellFormed := match exponent with
      | [] => true
      | e :: sign :: ds =>
        (e = 'e' || e = 'E') && (sign = '+' || sign = '-') && !ds.isEmpty && ds.all Char.isDigit
      | _ => false
    if (whole.isEmpty && fraction.isEmpty) || whole.head? = some '_' || !wellFormed then none
    else Double.ofText? (String.ofList (cs.filter (· ≠ '_')))
  | _ => none

/-- The sign of a number and what follows it. -/
def takeSign : List Char → Bool × List Char
  | '-' :: rest => (true, rest)
  | '+' :: rest => (false, rest)
  | cs => (false, cs)

/-- The spellings of infinity and of no number. -/
def boundless? (cs : List Char) : Option Double :=
  let (negative, body) := takeSign cs
  if [".inf", ".Inf", ".INF"].contains (String.ofList body) then some (.infinite negative)
  else if [".nan", ".NaN", ".NAN"].contains (String.ofList cs) then some .nan
  else none

/-- The number that a spelling is. -/
def number? (cs : List Char) : Option Value :=
  let (negative, body) := takeSign cs
  match natural? body with
  | some n => some (.int (if negative then -n else n))
  | none =>
    match decimal? body with
    | some d => some (.number (.double (if negative then (d.mul (.ofInt (-1))) else d)))
    | none => (boundless? cs).map fun d => .number (.double d)

/-- The value of a plain scalar. -/
def plain (cs : List Char) : Value :=
  let word := String.ofList cs
  if nullWords.contains word then .null
  else match truthWords.lookup word with
    | some b => .flag b
    | none => (number? cs).getD (.text word)

/-- A quoted scalar on one line, a quote inside it written twice. -/
def quotedText? (quote : Char) (cs : List Char) : Option (List Char) :=
  match cs with
  | [] => none
  | [c] => if c = quote then some [] else none
  | c :: d :: rest =>
    if c = quote then if d = quote then (quotedText? quote rest).map (c :: ·) else none
    else (quotedText? quote (d :: rest)).map (c :: ·)

/-- No plain scalar begins with one of these. -/
def reserved : List Char := ['[', ']', '\x7b', '\x7d', ',', '&', '*', '!', '|', '>', '%', '@', '`']

/-- The value that stands behind a name or a dash on its line. -/
def inline? (cs : List Char) : Option Value :=
  match cs with
  | ['[', ']'] => some (.list [])
  | ['\x7b', '\x7d'] => some (.object [])
  | '\'' :: rest => (quotedText? '\'' rest).map fun text => .text (String.ofList text)
  | '"' :: rest => (quotedText? '"' rest).map fun text => .text (String.ofList text)
  | '[' :: rest =>
    if rest.getLast? = some ']' then
      some (.list ((Text.splitAt ',' rest.dropLast).map fun item => plain (Text.trim item)))
    else none
  | c :: _ => if reserved.contains c then none else some (plain cs)
  | [] => some .null

/-! ### Lines -/

/-- A line: its indentation and what stands behind it. -/
abbrev Line := Nat × List Char

/-- The line without its comment; a number sign counts behind a blank. -/
def dropComment : Bool → List Char → List Char
  | _, [] => []
  | afterBlank, c :: rest =>
    if c = '#' && afterBlank then [] else c :: dropComment (c = ' ' || c = '\t') rest

/-- The lines that say something; none at all if one is indented by a tab. -/
def lines? (s : String) : Option (List Line) :=
  (Text.splitAt '\n' s.toList).foldr
    (fun raw rest => do
      let rest ← rest
      let line := Text.trimEnd (dropComment true raw)
      let body := line.dropWhile (· = ' ')
      if body.isEmpty || line = "---".toList then pure rest
      else if body.head? = some '\t' then none
      else pure ((line.length - body.length, body) :: rest))
    (some [])

/-- The line is an item of a list. -/
def isItem (cs : List Char) : Bool := cs = ['-'] || ['-', ' '].isPrefixOf cs

/-- The name and the value of a member. -/
def splitMember? : List Char → Option (List Char × List Char)
  | [] => none
  | [':'] => some ([], [])
  | ':' :: ' ' :: rest => some ([], rest.dropWhile (· = ' '))
  | c :: rest => (splitMember? rest).map fun (name, value) => (c :: name, value)

/-- The scalar stands between quotes. -/
def isQuoted (cs : List Char) : Bool := cs.head? = some '\'' || cs.head? = some '"'

/-! ### Blocks -/

mutual

/-- The block that begins at the first line if that is indented by at least `least`. -/
def readBlock : Nat → (least : Nat) → List Line → Option (Value × List Line)
  | 0, _, _ => none
  | _ + 1, _, [] => some (.null, [])
  | fuel + 1, least, (indent, body) :: rest =>
    if indent < least then some (.null, (indent, body) :: rest)
    else if isItem body then do
      let (items, rest) ← readItems fuel indent ((indent, body) :: rest)
      pure (.list items, rest)
    else if (splitMember? body).isSome then do
      let (members, rest) ← readMembers fuel indent [] ((indent, body) :: rest)
      pure (.object members, rest)
    else do pure (← inline? body, rest)

/-- The items at an indentation. -/
def readItems : Nat → Nat → List Line → Option (List Value × List Line)
  | 0, _, _ => none
  | _ + 1, _, [] => some ([], [])
  | fuel + 1, indent, (i, body) :: rest =>
    if i < indent || (i = indent && !isItem body) then some ([], (i, body) :: rest)
    else if indent < i then none
    else do
      let value := (body.drop 1).dropWhile (· = ' ')
      let lines := if value.isEmpty then rest
        else (i + (body.length - value.length), value) :: rest
      let (item, rest) ← readBlock fuel (indent + 1) lines
      let (more, rest) ← readItems fuel indent rest
      pure (item :: more, rest)

/-- The members at an indentation, filed with those before them. -/
def readMembers : Nat → Nat → Table Value → List Line → Option (Table Value × List Line)
  | 0, _, _, _ => none
  | _ + 1, _, before, [] => some (before, [])
  | fuel + 1, indent, before, (i, body) :: rest =>
    if i < indent then some (before, (i, body) :: rest)
    else if indent < i then none
    else do
      let (name, value) ← splitMember? body
      let (value, rest) ←
        if !value.isEmpty then
          if !isQuoted value && (splitMember? value).isSome then none
          else do pure (← inline? value, rest)
        else match rest with
          | (j, next) :: _ =>
            if j = indent && isItem next then do
              let (items, rest) ← readItems fuel indent rest
              pure (.list items, rest)
            else readBlock fuel (indent + 1) rest
          | [] => pure (.null, [])
      readMembers fuel indent (before.set (String.ofList name) value) rest

end

/-- The value of a document, unless it is broken. -/
def read? (s : String) : Option Value := do
  let lines ← lines? s
  match readBlock (2 * s.length + 2) 0 lines with
  | some (value, []) => pure value
  | _ => none

end PhpMigration.Block
