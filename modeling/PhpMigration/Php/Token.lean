/-
The tokens of PHP.

A token is a terminal of the grammar with the text it was read from and the line on which it
starts.  A word is a keyword whatever its case.
-/
import PhpMigration.Document.Shown
import PhpMigration.Text.Case

namespace PhpMigration.Php

/-- A terminal of the grammar with its text. -/
structure Token where
  kind : String
  text : String
  line : Nat
  deriving DecidableEq, Repr, Inhabited

/-- Why some text is no PHP. -/
inductive SyntaxFault where
  /-- No token begins here. -/
  | illegalCharacter (line : Nat)
  /-- A bracket closes that none has opened. -/
  | unopenedBracket
  /-- The grammar allows no such token here. -/
  | unexpectedToken (line : Nat)
  /-- The text ends too early. -/
  | unexpectedEnd
  /-- An octal number has a digit that is not octal. -/
  | badOctal (digits : String)
  /-- An integer has more digits than are read. -/
  | longInteger (digits : Nat)
  /-- An escape names a character by a negative code. -/
  | negativeCode
  /-- A text would close, but the word that closes it is no longer known. -/
  | noClosingWord
  /-- A subscript follows a property of something that is no variable. -/
  | subscriptAfterProperty
  /-- The compiler is halted inside a function or block. -/
  | nestedHalt
  /-- The grammar's tables and its rules do not fit together. -/
  | brokenTables
  deriving DecidableEq, Repr

/-- The wording of a fault, without the line. -/
def SyntaxFault.reason : SyntaxFault → String
  | .illegalCharacter _ => "illegal character"
  | .unopenedBracket => "pop from empty list"
  | .unexpectedToken _ => "invalid syntax"
  | .unexpectedEnd => "unexpected EOF while parsing"
  | .badOctal digits => (Misread.noInteger 8 digits).message
  | .longInteger digits => (Misread.tooManyDigits digits).message
  | .negativeCode => "can only concatenate str (not \"int\") to str"
  | .noClosingWord => "'Lexer' object has no attribute 'heredoc_label'"
  | .subscriptAfterProperty => "AssertionError"
  | .nestedHalt => "__HALT_COMPILER() can only be used from the outermost scope"
  | .brokenTables => "invalid grammar"

/-- The line that a fault names, zero if it names none. -/
def SyntaxFault.line : SyntaxFault → Nat
  | .illegalCharacter line | .unexpectedToken line => line
  | _ => 0

/-- What a parser reports of a text that it cannot read; line zero stands for none. -/
structure Report where
  reason : String
  line : Value
  deriving DecidableEq, Repr, Inhabited

/-- The wording of a report. -/
def Report.message (r : Report) : String :=
  if r.line.isGiven then s!"{r.reason} at line {r.line.shown}" else r.reason

/-- A report of a fault that lies in the parser itself: what it says, or else what it is. -/
def Report.ofBreakdown (name text : String) : Report := ⟨if text.isEmpty then name else text, .int 0⟩

/-- What is reported of a fault. -/
def SyntaxFault.report (f : SyntaxFault) : Report := ⟨f.reason, .int f.line⟩

/-- The words that are terminals of their own name. -/
def plainKeywords : List String :=
  ["ARRAY", "AS", "BREAK", "CASE", "CLASS", "CONST", "CONTINUE", "DECLARE", "DEFAULT", "DIE", "DO",
    "ECHO", "ELSE", "ELSEIF", "EMPTY", "ENDDECLARE", "ENDFOR", "ENDFOREACH", "ENDIF", "ENDSWITCH",
    "ENDWHILE", "EVAL", "EXIT", "EXTENDS", "FOR", "FOREACH", "FUNCTION", "GLOBAL", "IF", "INCLUDE",
    "INCLUDE_ONCE", "INSTANCEOF", "ISSET", "LIST", "NEW", "PRINT", "REQUIRE", "REQUIRE_ONCE",
    "RETURN", "STATIC", "SWITCH", "UNSET", "USE", "VAR", "WHILE", "FINAL", "INTERFACE",
    "IMPLEMENTS", "PUBLIC", "PRIVATE", "PROTECTED", "ABSTRACT", "CLONE", "TRY", "CATCH", "THROW",
    "NAMESPACE", "FINALLY", "TRAIT", "YIELD"]

/-- The words that are terminals of another name. -/
def renamedKeywords : List (String × String) :=
  [("__DIR__", "DIR"), ("__FILE__", "FILE"), ("__LINE__", "LINE"), ("__FUNCTION__", "FUNC_C"),
    ("__CLASS__", "CLASS_C"), ("__METHOD__", "METHOD_C"), ("__NAMESPACE__", "NS_C"),
    ("AND", "LOGICAL_AND"), ("OR", "LOGICAL_OR"), ("XOR", "LOGICAL_XOR"),
    ("__HALT_COMPILER", "HALT_COMPILER")]

/-- The terminal that a word is. -/
def wordKind (word : String) : String :=
  let capitals := Text.upper word
  if plainKeywords.contains capitals then capitals
  else (renamedKeywords.lookup capitals).getD "STRING"

end PhpMigration.Php
