/-
Parsing PHP.

The grammar is the list of all rules in order, with the precedence of the operators.  Unary plus
and minus bind like the binary ones, the choice groups to the left, comparisons do not chain, and
an assignment binds more tightly than the words for the logical operators.
-/
import PhpMigration.Php.Grammar.Statement
import PhpMigration.Php.Grammar.Declaration
import PhpMigration.Php.Grammar.Expression
import PhpMigration.Php.Grammar.Literal
import PhpMigration.Php.Lexer

namespace PhpMigration.Php

/-- All rules, in the order that decides between two reductions. -/
def rules : Array Grammar.Rule :=
  (Grammar.topRules ++ Grammar.statementRules ++ Grammar.controlRules ++ Grammar.declarationRules ++
    Grammar.expressionRules ++ Grammar.classNameRules ++ Grammar.variableRules ++
    Grammar.listRules ++ Grammar.scalarRules ++ Grammar.staticRules ++ Grammar.textRules).toArray

/-- The precedence of the operators, from loose to tight. -/
def levels : List (Lalr.Associativity × List String) := [
  (.left, ["INCLUDE", "INCLUDE_ONCE", "EVAL", "REQUIRE", "REQUIRE_ONCE"]),
  (.left, ["COMMA"]),
  (.left, ["LOGICAL_OR"]),
  (.left, ["LOGICAL_XOR"]),
  (.left, ["LOGICAL_AND"]),
  (.right, ["PRINT"]),
  (.left, "EQUALS" :: Grammar.assignTokens),
  (.left, ["QUESTION", "COLON"]),
  (.left, ["BOOLEAN_OR"]),
  (.left, ["BOOLEAN_AND"]),
  (.left, ["OR"]),
  (.left, ["XOR"]),
  (.left, ["AND"]),
  (.none, ["IS_EQUAL", "IS_NOT_EQUAL", "IS_IDENTICAL", "IS_NOT_IDENTICAL"]),
  (.none, ["IS_SMALLER", "IS_SMALLER_OR_EQUAL", "IS_GREATER", "IS_GREATER_OR_EQUAL"]),
  (.left, ["SL", "SR"]),
  (.left, ["PLUS", "MINUS", "CONCAT"]),
  (.left, ["MUL", "DIV", "MOD"]),
  (.right, ["BOOLEAN_NOT"]),
  (.none, ["INSTANCEOF"]),
  (.right, ["NOT", "INC", "DEC", "INT_CAST", "DOUBLE_CAST", "STRING_CAST", "ARRAY_CAST",
    "OBJECT_CAST", "BOOL_CAST", "UNSET_CAST", "AT"]),
  (.right, ["LBRACKET"]),
  (.none, ["NEW", "CLONE"]),
  (.left, ["ENDIF"]),
  (.right, ["STATIC", "ABSTRACT", "FINAL", "PRIVATE", "PROTECTED", "PUBLIC"])]

/-- The grammar of PHP. -/
def grammar : Lalr.Grammar := ⟨"start", rules.map (·.production), levels⟩

/-- Its tables. -/
def tables : Lalr.Tables := grammar.tables

/-- What the rule of a number makes of the values of its parts.  Rule zero is the whole program. -/
def build (production : Nat) (values : List Node) : Except SyntaxFault Node :=
  let parts := fun n => values.getD (n - 1) .absent
  match production with
  | 0 => pure (parts 1)
  | n + 1 =>
    match rules[n]? with
    | some rule => rule.build parts
    | none => throw .brokenTables

/-- How the tables are put to work on PHP. -/
def interface : Lalr.Interface Lexer.Reader Token Node SyntaxFault where
  next := Lexer.next
  kind := Token.kind
  value token := .text token.text
  build := build
  unexpected token := .unexpectedToken token.line
  unexpectedEnd := .unexpectedEnd
  broken := .brokenTables

/-- The statements of a program. -/
def parseStatements (code : String) : Except SyntaxFault (List Node) := do
  let text := code.toList
  let result ← Lalr.parse tables interface text.length (.start text)
  pure (Grammar.items result)

/-- The statements of a program, or a report of the first fault in it. -/
def parse (code : String) : Except Report (List Node) :=
  (parseStatements code).mapError SyntaxFault.report

end PhpMigration.Php
