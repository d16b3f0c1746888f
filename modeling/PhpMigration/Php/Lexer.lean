/-
Reading PHP tokens.

What a character means depends on where it stands: outside the tags, in code, in a quoted text,
behind a variable in such a text, and so on.  The reader has a current mode and a stack of saved
ones; a rule may save the current mode and enter another, enter another without saving, or go
back to the saved one.  In each mode the rules are tried in order and the first that matches wins.

A rule's match is a length, a terminal and what happens to the modes.  Lengths are found by
plain scans, and every rule that matches consumes at least one character.
-/
import PhpMigration.Php.Token
import PhpMigration.Text.Letter
import PhpMigration.Text.Search

namespace PhpMigration.Php.Lexer

open Text (isWord isDigit)

/-- Where the reader stands. -/
inductive Mode where
  | html
  | php
  | quoted
  | afterQuotedVariable
  | variableName
  | offset
  | property
  | backticked
  | afterBacktickedVariable
  | heredoc
  | afterHeredocVariable
  | nowdoc
  deriving DecidableEq, Repr, Inhabited

/-- What a token does to the modes. -/
inductive Move where
  | stay
  | enter (mode : Mode)
  | replace (mode : Mode)
  | leave
  | leaveTwice
  /-- The text would close, but it has no closing word any more. -/
  | lost
  deriving DecidableEq, Repr

/-- A rule's match at the head of the text. -/
structure Match where
  kind : String
  length : Nat
  move : Move
  deriving Repr

/-- The state of the reader. -/
structure State where
  /-- The text still to be read. -/
  rest : List Char
  /-- The last character read was a line feed. -/
  afterNewline : Bool
  /-- The current line. -/
  line : Nat
  mode : Mode
  saved : List Mode
  /-- The word that closes a heredoc.  There is one for all of them, so a heredoc inside another
  one takes it away. -/
  heredocLabel : Option (List Char)
  /-- The word that closes a heredoc without variables. -/
  nowdocLabel : List Char
  deriving Repr

/-! ### Scans -/

/-- A letter that may begin a name. -/
def isNameStart (c : Char) : Bool := c.isAlpha || c = '_'

/-- The first character satisfies a condition. -/
def startsWith (p : Char → Bool) : List Char → Bool
  | c :: _ => p c
  | [] => false

/-- The number of leading characters that satisfy a condition. -/
def run (p : Char → Bool) (cs : List Char) : Nat := (cs.takeWhile p).length

/-- The length of a name, zero if there is none. -/
def nameLength : List Char → Nat
  | c :: rest => if isNameStart c then run isWord rest + 1 else 0
  | [] => 0

/-- A nonzero length as a match. -/
def matching (kind : String) (length : Nat) (move : Move := .stay) : Option Match :=
  if length = 0 then none else some ⟨kind, length, move⟩

/-- A fixed text as a match. -/
def fixed (text kind : String) (move : Move) (cs : List Char) : Option Match :=
  if text.toList.isPrefixOf cs then some ⟨kind, text.length, move⟩ else none

/-- A blank in code. -/
def isCodeBlank (c : Char) : Bool := c = ' ' || c = '\t' || c = '\r' || c = '\n'

/-- A blank inside a line. -/
def isLineBlank (c : Char) : Bool := c = ' ' || c = '\t'

/-- The length of an optional carriage return and an optional line feed. -/
def optionalNewline : List Char → Nat
  | '\r' :: '\n' :: _ => 2
  | '\r' :: _ => 1
  | '\n' :: _ => 1
  | _ => 0

/-- The length up to and including the next `*/`. -/
def toCommentEnd : List Char → Option Nat
  | [] => none
  | '*' :: '/' :: _ => some 2
  | _ :: rest => (toCommentEnd rest).map (· + 1)

/-- The length of a comment up to the end of the line or a closing tag. -/
def lineCommentLength : List Char → Nat
  | [] => 0
  | '\n' :: _ => 1
  | c :: rest =>
    if (c = '?' || c = '%') && startsWith (· = '>') rest then 0 else lineCommentLength rest + 1

/-- The length of an exponent, zero if there is none. -/
def exponentLength : List Char → Nat
  | c :: rest =>
    if c = 'e' || c = 'E' then
      match rest with
      | '+' :: digits => let n := run isDigit digits; if n = 0 then 0 else n + 2
      | '-' :: digits => let n := run isDigit digits; if n = 0 then 0 else n + 2
      | digits => let n := run isDigit digits; if n = 0 then 0 else n + 1
    else 0
  | [] => 0

/-- The length of a number with a point or an exponent. -/
def realLength (cs : List Char) : Nat :=
  let whole := run isDigit cs
  match cs.drop whole with
  | '.' :: rest =>
    let fraction := run isDigit rest
    if whole = 0 && fraction = 0 then 0
    else whole + 1 + fraction + exponentLength (rest.drop fraction)
  | rest =>
    let exponent := exponentLength rest
    if whole = 0 || exponent = 0 then 0 else whole + exponent

/-- A hexadecimal digit. -/
def isHexDigit (c : Char) : Bool :=
  c.isDigit || ('a' ≤ c && c ≤ 'f') || ('A' ≤ c && c ≤ 'F')

/-- The length of an integer. -/
def integerLength (cs : List Char) : Nat :=
  let plain := run isDigit cs
  match cs with
  | '0' :: 'b' :: rest =>
    let n := run (fun c => c = '0' || c = '1') rest
    if n = 0 then plain else n + 2
  | '0' :: 'x' :: rest =>
    let n := run isHexDigit rest
    if n = 0 then plain else n + 2
  | _ => plain

/-- The length of the rest of a text in single quotes, up to and including the closing quote. -/
def toSingleQuote : List Char → Option Nat
  | [] => none
  | '\'' :: _ => some 1
  | '\\' :: _ :: rest => (toSingleQuote rest).map (· + 2)
  | '\\' :: [] => none
  | _ :: rest => (toSingleQuote rest).map (· + 1)

/-- A dollar sign here begins no variable and no expression. -/
def isPlainDollar (rest : List Char) : Bool :=
  !startsWith (fun c => isNameStart c || c = '\x7b') rest

/-- A brace here begins no expression. -/
def isPlainBrace (rest : List Char) : Bool := !startsWith (· = '$') rest

/-- The length of plain text between the given quotes. -/
def plainLength (quote : Char) : List Char → Nat
  | [] => 0
  | '\\' :: _ :: rest => plainLength quote rest + 2
  | '\\' :: [] => 0
  | '$' :: rest => if isPlainDollar rest then plainLength quote rest + 1 else 0
  | '\x7b' :: rest => if isPlainBrace rest then plainLength quote rest + 1 else 0
  | c :: rest => if c = quote then 0 else plainLength quote rest + 1

/-- The length of plain text in one line of a heredoc. -/
def heredocLineLength : List Char → Nat
  | [] => 0
  | '\n' :: _ => 0
  | '\\' :: '\n' :: _ => 0
  | '\\' :: _ :: rest => heredocLineLength rest + 2
  | '\\' :: [] => 0
  | '$' :: rest => if isPlainDollar rest then heredocLineLength rest + 1 else 0
  | '\x7b' :: rest => if isPlainBrace rest then heredocLineLength rest + 1 else 0
  | _ :: rest => heredocLineLength rest + 1

/-- The length of plain text in a heredoc, with the line feed that ends it. -/
def heredocLength (cs : List Char) : Nat :=
  let n := heredocLineLength cs
  if n = 0 then
    match cs with
    | '\n' :: _ => 1
    | '\\' :: '\n' :: _ => 2
    | _ => 0
  else if startsWith (· = '\n') (cs.drop n) then n + 1 else n

/-- The length of text up to and including the line feed. -/
def lineLength (cs : List Char) : Nat :=
  let n := run (· ≠ '\n') cs
  if startsWith (· = '\n') (cs.drop n) then n + 1 else 0

/-! ### Rules in code -/

/-- A type in parentheses. -/
def castWords : List (String × String) :=
  [("real", "DOUBLE_CAST"), ("double", "DOUBLE_CAST"), ("float", "DOUBLE_CAST"),
    ("bool", "BOOL_CAST"), ("boolean", "BOOL_CAST"), ("int", "INT_CAST"), ("integer", "INT_CAST"),
    ("binary", "BINARY_CAST"), ("object", "OBJECT_CAST"), ("string", "STRING_CAST"),
    ("array", "ARRAY_CAST"), ("unset", "UNSET_CAST")]

/-- A cast: a type's name in parentheses, with blanks around it. -/
def cast? : List Char → Option Match
  | '(' :: rest =>
    let before := run isLineBlank rest
    let inner := rest.drop before
    let word := inner.takeWhile Char.isAlpha
    let behind := inner.drop word.length
    let after := run isLineBlank behind
    if startsWith (· = ')') (behind.drop after) then
      (castWords.lookup (String.ofList (word.map Char.toLower))).bind fun kind =>
        matching kind (1 + before + word.length + after + 1)
    else none
  | _ => none

/-- The operators, in the order in which they are tried. -/
def operators : List (String × String) :=
  [("||", "BOOLEAN_OR"), ("++", "INC"), ("===", "IS_IDENTICAL"), ("!==", "IS_NOT_IDENTICAL"),
    ("*=", "MUL_EQUAL"), ("+=", "PLUS_EQUAL"), ("<<=", "SL_EQUAL"), (">>=", "SR_EQUAL"),
    ("|=", "OR_EQUAL"), ("^=", "XOR_EQUAL"), (".=", "CONCAT_EQUAL"), ("+", "PLUS"), ("*", "MUL"),
    ("|", "OR"), ("^", "XOR"), ("<<", "SL"), (">>", "SR"), ("&&", "BOOLEAN_AND"),
    ("<=", "IS_SMALLER_OR_EQUAL"), (">=", "IS_GREATER_OR_EQUAL"), ("==", "IS_EQUAL"),
    ("/=", "DIV_EQUAL"), ("%=", "MOD_EQUAL"), ("-=", "MINUS_EQUAL"), ("&=", "AND_EQUAL"),
    ("--", "DEC"), ("=>", "DOUBLE_ARROW"), ("::", "DOUBLE_COLON"), ("(", "LPAREN"),
    (")", "RPAREN"), ("$", "DOLLAR"), ("?", "QUESTION"), ("\\", "NS_SEPARATOR"), ("-", "MINUS"),
    ("/", "DIV"), ("%", "MOD"), ("&", "AND"), ("~", "NOT"), ("!", "BOOLEAN_NOT"),
    ("<", "IS_SMALLER"), (">", "IS_GREATER"), ("=", "EQUALS"), (",", "COMMA"), (":", "COLON"),
    (";", "SEMI"), ("@", "AT")]

/-- An operator; two of them depend on what follows. -/
def operator? (cs : List Char) : Option Match :=
  match cs with
  | '!' :: '=' :: rest =>
    if startsWith (· = '=') rest then matching "IS_NOT_IDENTICAL" 3 else matching "IS_NOT_EQUAL" 2
  | '<' :: '>' :: _ => matching "IS_NOT_EQUAL" 2
  | '.' :: rest =>
    if startsWith (fun c => isDigit c || c = '=') rest then
      (if startsWith (· = '=') rest then matching "CONCAT_EQUAL" 2 else none)
    else matching "CONCAT" 1
  | _ => operators.findSome? fun (text, kind) => fixed text kind .stay cs

/-- A comment of any form. -/
def comment? : List Char → Option Match
  | '/' :: '*' :: rest =>
    let documentation := match rest with
      | '*' :: inner => (toCommentEnd inner).bind fun n => matching "DOC_COMMENT" (n + 3)
      | _ => none
    documentation.or ((toCommentEnd rest).bind fun n => matching "COMMENT" (n + 2))
  | '/' :: '/' :: rest => matching "COMMENT" (lineCommentLength rest + 2)
  | '#' :: rest => matching "COMMENT" (lineCommentLength rest + 1)
  | _ => none

/-- The word that opens a heredoc, the length of the opening line, and whether it is quoted. -/
def heredocStart? : List Char → Option (List Char × Nat × Bool)
  | '<' :: '<' :: '<' :: rest =>
    let blanks := run isLineBlank rest
    let inner := rest.drop blanks
    let isRaw := startsWith (· = '\'') inner
    let named := if isRaw then inner.drop 1 else inner
    let label := named.take (nameLength named)
    let behind := named.drop label.length
    let closed := if isRaw then startsWith (· = '\'') behind else true
    let behind := if isRaw then behind.drop 1 else behind
    let newline := match behind with
      | '\r' :: '\n' :: _ => 2
      | '\n' :: _ => 1
      | _ => 0
    if label.isEmpty || !closed || newline = 0 then none
    else some (label, 3 + blanks + label.length + (if isRaw then 2 else 0) + newline, isRaw)
  | _ => none

/-- The opening line of a heredoc. -/
def heredoc? (cs : List Char) : Option Match :=
  (heredocStart? cs).bind fun (_, length, isRaw) =>
    if isRaw then matching "START_NOWDOC" length (.enter .nowdoc)
    else matching "START_HEREDOC" length (.enter .heredoc)

/-- The word at the head as a terminal. -/
def word? (cs : List Char) : Option Match :=
  let n := nameLength cs
  matching (wordKind (String.ofList (cs.take n))) n

/-- A variable. -/
def variableToken? (move : Move) : List Char → Option Match
  | '$' :: rest =>
    let n := nameLength rest
    if n = 0 then none else matching "VARIABLE" (n + 1) move
  | _ => none

/-- An arrow; a name behind it is a property and no keyword. -/
def arrow? : List Char → Option Match
  | '-' :: '>' :: rest =>
    matching "OBJECT_OPERATOR" 2 (if startsWith isNameStart rest then .enter .property else .stay)
  | _ => none

/-- A closing tag. -/
def closeTag? : List Char → Option Match
  | c :: '>' :: rest =>
    if c = '?' || c = '%' then matching "CLOSE_TAG" (2 + optionalNewline rest) (.replace .html)
    else none
  | _ => none

/-- A text in single quotes. -/
def singleQuoted? : List Char → Option Match
  | '\'' :: rest => (toSingleQuote rest).bind fun n => matching "CONSTANT_ENCAPSED_STRING" (n + 1)
  | _ => none

/-- The rules in code. -/
def code? (cs : List Char) : Option Match :=
  [fun cs => matching "WHITESPACE" (run isCodeBlank cs), arrow?,
    fixed "[" "LBRACKET" (.enter .php), fixed "]" "RBRACKET" .leave,
    fixed "\x7b" "LBRACE" (.enter .php), fixed "\x7d" "RBRACE" .leave,
    comment?, closeTag?, word?, variableToken? .stay,
    fun cs => matching "DNUMBER" (realLength cs), fun cs => matching "LNUMBER" (integerLength cs),
    singleQuoted?, fixed "\"" "QUOTE" (.enter .quoted), heredoc?,
    fixed "`" "BACKTICK" (.enter .backticked), cast?, operator?].findSome? (· cs)

/-! ### Rules elsewhere -/

/-- An opening tag. -/
def openTag? : List Char → Option Match
  | '<' :: c :: rest =>
    if c = '?' || c = '%' then
      let php := rest.take 3
      if php.map Char.toLower = ['p', 'h', 'p'] then
        matching "OPEN_TAG" (if startsWith isCodeBlank (rest.drop 3) then 6 else 5) (.replace .php)
      else if startsWith (· = '=') rest then matching "OPEN_TAG_WITH_ECHO" 3 (.replace .php)
      else matching "OPEN_TAG" 2 (.replace .php)
    else none
  | _ => none

/-- The length of the text up to the next opening tag. -/
def htmlLength : List Char → Nat
  | [] => 0
  | '<' :: rest =>
    if startsWith (fun c => c = '?' || c = '%') rest then 0 else htmlLength rest + 1
  | _ :: rest => htmlLength rest + 1

/-- An expression in a text; `enters` says whether the mode is saved. -/
def curly? (move : Mode → Move) : List Char → Option Match
  | '\x7b' :: '$' :: _ => matching "CURLY_OPEN" 1 (move .php)
  | '$' :: '\x7b' :: rest =>
    matching "DOLLAR_OPEN_CURLY_BRACES" 2
      (move (if startsWith isNameStart rest then .variableName else .php))
  | _ => none

/-- Plain text in a quoted text. -/
def plain? (length : Nat) (move : Move) : Option Match :=
  matching "ENCAPSED_AND_WHITESPACE" length move

/-- The rules in a text between the given quotes. -/
def inQuotes? (quote : Char) (kind : String) (afterVariable : Mode) (cs : List Char) :
    Option Match :=
  [fixed (String.singleton quote) kind .leave, fun cs => plain? (plainLength quote cs) .stay,
    variableToken? (.enter afterVariable), curly? .enter].findSome? (· cs)

/-- A subscript or a property directly behind a variable in a text. -/
def member? : List Char → Option Match
  | '[' :: _ => matching "LBRACKET" 1 (.replace .offset)
  | '-' :: '>' :: rest =>
    if startsWith Char.isAlpha rest then matching "OBJECT_OPERATOR" 2 (.replace .property) else none
  | _ => none

/-- The rules behind a variable in a text between the given quotes. -/
def afterVariableInQuotes? (quote : Char) (kind : String) (cs : List Char) : Option Match :=
  [fixed (String.singleton quote) kind .leaveTwice, member?,
    fun cs => plain? (plainLength quote cs) .leave, variableToken? .stay,
    curly? .replace].findSome? (· cs)

/-- The closing word of a heredoc, which stands at the beginning of a line; another word there is
plain text. -/
def closing? (s : State) (kind : String) (label : Option (List Char)) : Option Match :=
  let n := nameLength s.rest
  if s.afterNewline then
    match label with
    | none => matching kind n .lost
    | some word => if s.rest.take n = word then matching kind n .leave else plain? n .stay
  else none

/-- The first rule that matches. -/
def match? (s : State) : Option Match :=
  match s.mode with
  | .html => (openTag? s.rest).or (matching "INLINE_HTML" (htmlLength s.rest))
  | .php => code? s.rest
  | .quoted => inQuotes? '"' "QUOTE" .afterQuotedVariable s.rest
  | .afterQuotedVariable => afterVariableInQuotes? '"' "QUOTE" s.rest
  | .backticked => inQuotes? '`' "BACKTICK" .afterBacktickedVariable s.rest
  | .afterBacktickedVariable => afterVariableInQuotes? '`' "BACKTICK" s.rest
  | .variableName =>
    (matching "STRING_VARNAME" (nameLength s.rest)).or
      ((fixed "\x7d" "RBRACE" .leave s.rest).or (fixed "[" "LBRACKET" (.enter .php) s.rest))
  | .offset =>
    (matching "STRING" (nameLength s.rest)).or ((matching "NUM_STRING" (run isDigit s.rest)).or
      ((variableToken? .stay s.rest).or (fixed "]" "RBRACKET" .leave s.rest)))
  | .property => matching "STRING" (nameLength s.rest) .leave
  | .heredoc =>
    (curly? .enter s.rest).or ((closing? s "END_HEREDOC" s.heredocLabel).or
      ((plain? (heredocLength s.rest) .stay).or
        (variableToken? (.enter .afterHeredocVariable) s.rest)))
  | .afterHeredocVariable =>
    (member? s.rest).or ((plain? (heredocLength s.rest) .leave).or
      ((variableToken? .stay s.rest).or (curly? .replace s.rest)))
  | .nowdoc => (closing? s "END_NOWDOC" s.nowdocLabel).or (plain? (lineLength s.rest) .stay)

/-! ### Tokens -/

/-- The terminals whose line feeds count as lines. -/
def countsLines : List String :=
  ["WHITESPACE", "DOC_COMMENT", "COMMENT", "OPEN_TAG", "OPEN_TAG_WITH_ECHO", "CLOSE_TAG",
    "INLINE_HTML", "CONSTANT_ENCAPSED_STRING", "ENCAPSED_AND_WHITESPACE"]

/-- The modes after a move. -/
def moved (move : Move) (mode : Mode) (saved : List Mode) :
    Except SyntaxFault (Mode × List Mode) :=
  match move, saved with
  | .stay, saved => pure (mode, saved)
  | .enter next, saved => pure (next, mode :: saved)
  | .replace next, saved => pure (next, saved)
  | .leave, next :: saved => pure (next, saved)
  | .leaveTwice, _ :: next :: saved => pure (next, saved)
  | .lost, _ => throw .noClosingWord
  | _, _ => throw .unopenedBracket

/-- The token at the head of the text. -/
def scan (s : State) : Except SyntaxFault (Token × State) :=
  match match? s with
  | none => throw (.illegalCharacter s.line)
  | some m => do
    let (mode, saved) ← moved m.move s.mode s.saved
    let text := s.rest.take m.length
    let lines := if countsLines.contains m.kind then text.count '\n' else 0
    let label := (heredocStart? s.rest).map (·.1)
    pure (⟨m.kind, String.ofList text, s.line⟩,
      { rest := s.rest.drop m.length, afterNewline := text.getLast? = some '\n',
        line := s.line + lines, mode, saved,
        heredocLabel := if m.kind = "START_HEREDOC" then label
          else if m.kind = "END_HEREDOC" then none else s.heredocLabel
        nowdocLabel := if m.kind = "START_NOWDOC" then label.getD [] else s.nowdocLabel })

/-- The reader before some text. -/
def State.start (text : List Char) : State :=
  { rest := text, afterNewline := false, line := 1, mode := .html, saved := [],
    heredocLabel := none, nowdocLabel := [] }

/-! ### The tokens that the grammar sees -/

/-- The reader and the terminal it delivered last; a skipped opening tag counts. -/
structure Reader where
  state : State
  last : String
  deriving Repr

/-- A closing tag needs no semicolon behind these. -/
def closedKinds : List String := ["OPEN_TAG", "SEMI", "COLON", "LBRACE", "RBRACE"]

/-- Blanks and comments are dropped.  An opening tag is a semicolon behind another one and is
dropped otherwise, one that echoes is the keyword, and a closing tag is a semicolon unless a
statement has just ended. -/
def nextFrom : Nat → Reader → Except SyntaxFault (Option Token × Reader)
  | 0, r => pure (none, r)
  | fuel + 1, r =>
    if r.state.rest.isEmpty then pure (none, r)
    else do
      let (token, state) ← scan r.state
      let deliver (kind : String) : Except SyntaxFault (Option Token × Reader) :=
        pure (some { token with kind }, ⟨state, kind⟩)
      match token.kind with
      | "WHITESPACE" | "COMMENT" | "DOC_COMMENT" => nextFrom fuel ⟨state, r.last⟩
      | "OPEN_TAG" =>
        if r.last = "SEMI" then deliver "SEMI" else nextFrom fuel ⟨state, "OPEN_TAG"⟩
      | "OPEN_TAG_WITH_ECHO" => deliver "ECHO"
      | "CLOSE_TAG" =>
        if closedKinds.contains r.last then nextFrom fuel ⟨state, r.last⟩ else deliver "SEMI"
      | kind => deliver kind

/-- The next token that the grammar sees, or nothing at the end of the text. -/
def next (r : Reader) : Except SyntaxFault (Option Token × Reader) :=
  nextFrom (r.state.rest.length + 1) r

/-- The reader before some text. -/
def Reader.start (text : List Char) : Reader := ⟨State.start text, ""⟩

end PhpMigration.Php.Lexer
