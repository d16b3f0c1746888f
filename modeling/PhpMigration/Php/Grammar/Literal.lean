/-
Literals of PHP: numbers, texts in all their forms, and constant expressions.

A text with variables in it becomes a concatenation.  It grows from the left: a part behind
nothing is the part itself, plain text behind plain text is one text, and everything else is
concatenated.
-/
import PhpMigration.Php.Grammar.Expression
import PhpMigration.Number.Reading
import PhpMigration.Text.Search

namespace PhpMigration.Php.Grammar

/-! ### Numbers -/

/-- The value of a hexadecimal digit, or of a decimal digit of any script. -/
def hexValue? (c : Char) : Option Nat :=
  if 'a' ≤ c ∧ c ≤ 'f' then some (c.toNat - 'a'.toNat + 10)
  else if 'A' ≤ c ∧ c ≤ 'F' then some (c.toNat - 'A'.toNat + 10)
  else Text.digitValue? c

/-- The number that digits of a base denote. -/
def ofBase (base : Nat) (digits : List Char) : Nat :=
  Double.ofDigits base (digits.map fun c => (hexValue? c).getD 0)

/-- The value of a decimal integer. -/
def decimalValue (text : String) : Except SyntaxFault Node :=
  match readInteger text with
  | .ok n => pure (.number (.int n))
  | .error (.tooManyDigits count) => throw (.longInteger count)
  | .error _ => throw .brokenTables

/-- The value of an integer: hexadecimal behind `0x`, binary behind `0b`, octal behind another
zero, and decimal otherwise. -/
def integerValue (text : String) : Except SyntaxFault Node :=
  match text.toList with
  | '0' :: 'x' :: digits => pure (.number (.int (ofBase 16 digits)))
  | '0' :: 'b' :: digits => pure (.number (.int (ofBase 2 digits)))
  | '0' :: digits =>
    if digits.all fun c => (hexValue? c).getD 8 < 8 then pure (.number (.int (ofBase 8 digits)))
    else throw (.badOctal text)
  | _ => decimalValue text

/-- The value of a number with a point or an exponent. -/
def realValue (text : String) : Node := .number (.double ((Double.ofText? text).getD .nan))

/-! ### Texts -/

/-- The text between single quotes: first every escaped quote loses its backslash, then every
pair of backslashes becomes one. -/
def singleQuotedText (literal : String) : String :=
  let inner := (literal.toList.drop 1).dropLast
  let quotes := Text.replaceAll ['\\', '\''] ['\''] inner
  String.ofList (Text.replaceAll ['\\', '\\'] ['\\'] quotes)

/-- The hexadecimal code that at most two characters are, if they are one; they may be a sign and
a digit, or white space and a digit. -/
def hexCode? (code : List Char) : Option Int :=
  let (negative, digits) := Double.takeSign (Text.trimSpace code)
  if digits.isEmpty || !digits.all (fun c => (hexValue? c).isSome) then none
  else some (Double.signed negative (ofBase 16 digits))

/-- What a hexadecimal escape stands for; without a code it stands for itself. -/
def hexEscape (code : List Char) : Except SyntaxFault (List Char) :=
  match hexCode? code with
  | none => pure ('\\' :: 'x' :: code)
  | some (.ofNat n) => pure [Char.ofNat n]
  | some _ => throw .negativeCode

/-- What a backslash and a character stand for, the letter x excepted. -/
def simpleEscape : Char → Char
  | 'n' => '\n'
  | 'r' => '\r'
  | 't' => '\t'
  | c => c

/-- The text of a literal in double quotes, its escapes resolved. -/
def unescape : List Char → Except SyntaxFault (List Char)
  | '\\' :: 'x' :: a :: b :: rest => do
    let first ← hexEscape [a, b]
    let rest ← unescape rest
    pure (first ++ rest)
  | ['\\', 'x', a] => hexEscape [a]
  | ['\\', 'x'] => pure ['\\', 'x']
  | '\\' :: c :: rest => do pure (simpleEscape c :: (← unescape rest))
  | c :: rest => do pure (c :: (← unescape rest))
  | [] => pure []

/-- The text of a token, its escapes resolved. -/
def unescaped (n : Node) : Except SyntaxFault String := do
  pure (String.ofList (← unescape (textOf n).toList))

/-- A variable part behind a text. -/
def joinPart (before value : Node) : Node :=
  if before == .text "" then value else .binaryOp (.text ".") before value

/-- Plain text behind a text.  An operation on a text takes the plain text into it and becomes a
concatenation. -/
def joinText (before : Node) (more : String) : Node :=
  match before with
  | .text s => .text (s ++ more)
  | .binaryOp _ left (.text s) => .binaryOp (.text ".") left (.text (s ++ more))
  | other => .binaryOp (.text ".") other (.text more)

/-- The text without its last character. -/
def dropLast (s : String) : String := String.ofList s.toList.dropLast

/-- A text without the line feed before the closing word. -/
def withoutNewline : Node → Node
  | .text s => .text (dropLast s)
  | .binaryOp operator left (.text s) =>
    if dropLast s = "" then left else .binaryOp operator left (.text (dropLast s))
  | other => other

/-- A text with a word before it: the letter b means nothing, any other word makes the text
vanish. -/
def prefixed (word value : Node) : Node := if word == .text "b" then value else .absent

/-- A constant by its name. -/
def constant (name : (Nat → Node) → String) : Build :=
  make fun v => .constant (.text (name v))

/-- Texts and names. -/
def scalarRules : List Rule :=
  alternatives "scalar" [
    ("class_constant", part 1),
    ("common_scalar", part 1),
    ("QUOTE encaps_list QUOTE", part 2),
    ("STRING QUOTE encaps_list QUOTE", make fun v => prefixed (v 1) (v 3)),
    ("scalar_heredoc", part 1),
    ("nowdoc", part 1),
    ("class_name_constant", part 1),
    ("STRING_VARNAME", make fun v => .variable (.text ("$" ++ textOf (v 1)))),
    ("namespace_name", constant fun v => textOf (v 1)),
    ("NS_SEPARATOR namespace_name", constant fun v => rootedName (v 2)),
    ("NAMESPACE NS_SEPARATOR namespace_name", constant fun v => joinNames (v 1) (v 3))] ++
  alternatives "scalar_heredoc" [
    ("START_HEREDOC encaps_list END_HEREDOC", make fun v => withoutNewline (v 2))] ++
  alternatives "nowdoc" [
    ("START_NOWDOC nowdoc_text_content END_NOWDOC", make fun v => .text (dropLast (textOf (v 2))))] ++
  alternatives "nowdoc_text_content" [
    ("nowdoc_text_content ENCAPSED_AND_WHITESPACE",
      make fun v => .text (textOf (v 1) ++ textOf (v 2))),
    ("empty", make fun _ => .text "")] ++
  alternatives "class_constant" [
    ("class_name DOUBLE_COLON STRING", construct "StaticProperty"),
    ("variable_class_name DOUBLE_COLON STRING", construct "StaticProperty")] ++
  alternatives "common_scalar" [
    ("LNUMBER", fun v => integerValue (textOf (v 1))),
    ("DNUMBER", make fun v => realValue (textOf (v 1))),
    ("CONSTANT_ENCAPSED_STRING", make fun v => .text (singleQuotedText (textOf (v 1)))),
    ("STRING CONSTANT_ENCAPSED_STRING",
      make fun v => prefixed (v 1) (.text (singleQuotedText (textOf (v 2))))),
    ("LINE", construct "MagicConstant"),
    ("FILE", construct "MagicConstant"),
    ("DIR", construct "MagicConstant"),
    ("CLASS_C", construct "MagicConstant"),
    ("METHOD_C", construct "MagicConstant"),
    ("FUNC_C", construct "MagicConstant"),
    ("NS_C", construct "MagicConstant")]

/-- Values that are known before a program runs. -/
def staticRules : List Rule :=
  alternatives "static_scalar" [
    ("common_scalar", part 1),
    ("class_constant", part 1),
    ("QUOTE QUOTE", make fun _ => .text ""),
    ("QUOTE ENCAPSED_AND_WHITESPACE QUOTE", fun v => return .text (← unescaped (v 2))),
    ("static_heredoc", part 1),
    ("nowdoc", part 1),
    ("class_name_constant", part 1),
    ("namespace_name", constant fun v => textOf (v 1)),
    ("NS_SEPARATOR namespace_name", constant fun v => rootedName (v 2)),
    ("NAMESPACE NS_SEPARATOR namespace_name", constant fun v => joinNames (v 1) (v 3)),
    ("PLUS static_scalar", unary),
    ("MINUS static_scalar", unary),
    ("ARRAY LPAREN static_array_pair_list RPAREN", make fun v => .array (items (v 3))),
    ("LBRACKET static_array_pair_list RBRACKET", make fun v => .array (items (v 2)))] ++
  alternatives "class_name_constant" [("class_name DOUBLE_COLON CLASS", part 1)] ++
  alternatives "static_heredoc" [
    ("START_HEREDOC multiple_encapsed END_HEREDOC",
      make fun v => .text (dropLast (textOf (v 2))))] ++
  alternatives "multiple_encapsed" [
    ("multiple_encapsed ENCAPSED_AND_WHITESPACE",
      make fun v => .text (textOf (v 1) ++ textOf (v 2))),
    ("empty", make fun _ => .text "")] ++
  alternatives "static_array_pair_list" [
    ("empty", emptyList),
    ("static_non_empty_array_pair_list possible_comma", part 1)] ++
  alternatives "static_non_empty_array_pair_list" [
    ("static_non_empty_array_pair_list COMMA static_expr", snocElement 3),
    ("static_expr", make fun v => .list [.arrayElement .absent (v 1)]),
    ("static_non_empty_array_pair_list COMMA static_scalar DOUBLE_ARROW static_expr",
      snocEntry 3 5),
    ("static_scalar DOUBLE_ARROW static_expr", make fun v => .list [.arrayElement (v 1) (v 3)])] ++
  alternatives "static_expr" ([("static_scalar", part 1)] ++
    binaryTokens.map (fun t => ("static_expr " ++ t ++ " static_expr", binary)) ++
    [("LPAREN static_expr RPAREN", part 2)])

/-- Names, and texts with variables in them. -/
def textRules : List Rule :=
  alternatives "namespace_name" [
    ("namespace_name NS_SEPARATOR STRING", make fun v => .text (joinNames (v 1) (v 3))),
    ("STRING", part 1),
    ("ARRAY", part 1)] ++
  alternatives "encaps_list" [
    ("encaps_list encaps_var", make fun v => joinPart (v 1) (v 2)),
    ("empty", make fun _ => .text ""),
    ("encaps_list ENCAPSED_AND_WHITESPACE", fun v => return joinText (v 1) (← unescaped (v 2)))] ++
  alternatives "encaps_var" [
    ("VARIABLE", namedVariable 1),
    ("VARIABLE LBRACKET encaps_var_offset RBRACKET",
      make fun v => .arrayOffset (.variable (v 1)) (v 3)),
    ("VARIABLE OBJECT_OPERATOR STRING", make fun v => .objectProperty (.variable (v 1)) (v 3)),
    ("DOLLAR_OPEN_CURLY_BRACES expr RBRACE", part 2),
    ("DOLLAR_OPEN_CURLY_BRACES STRING_VARNAME LBRACKET expr RBRACKET RBRACE",
      make fun v => .arrayOffset (.variable (.text ("$" ++ textOf (v 2)))) (v 4)),
    ("CURLY_OPEN variable RBRACE", part 2)] ++
  alternatives "encaps_var_offset" [
    ("STRING", part 1),
    ("NUM_STRING", fun v => decimalValue (textOf (v 1))),
    ("VARIABLE", namedVariable 1)] ++
  alternatives "empty" [("", nothing)]

end PhpMigration.Php.Grammar
