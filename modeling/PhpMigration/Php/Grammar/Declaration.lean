/-
Declarations of functions, classes, interfaces and traits.

Of a function its name, parameters and body are kept, of everything else only the name.
-/
import PhpMigration.Php.Grammar.Basic

namespace PhpMigration.Php.Grammar

/-- A parameter with or without a default value. -/
def formal (name : Nat) (default : Option Nat := none) : Build :=
  make fun v => .formalParameter (v name) ((default.map v).getD .absent)

/-- Functions and classes. -/
def declarationRules : List Rule :=
  alternatives "function_declaration_statement" [
    ("FUNCTION is_reference STRING LPAREN parameter_list RPAREN LBRACE inner_statement_list RBRACE",
      make fun v => .function (v 3) (items (v 5)) (v 8))] ++
  alternatives "class_declaration_statement" [
    ("class_entry_type STRING extends_from implements_list LBRACE class_statement_list RBRACE",
      construct "Class"),
    ("INTERFACE STRING interface_extends_list LBRACE class_statement_list RBRACE",
      construct "Interface"),
    ("TRAIT STRING LBRACE trait_statement_list RBRACE", construct "Trait")] ++
  alternatives "class_entry_type" [
    ("CLASS", nothing), ("ABSTRACT CLASS", nothing), ("FINAL CLASS", nothing)] ++
  alternatives "extends_from" [("empty", nothing), ("EXTENDS fully_qualified_class_name", nothing)] ++
  alternatives "fully_qualified_class_name" [
    ("namespace_name", nothing),
    ("NS_SEPARATOR namespace_name", nothing),
    ("NAMESPACE NS_SEPARATOR namespace_name", nothing)] ++
  alternatives "implements_list" [("IMPLEMENTS interface_list", nothing), ("empty", nothing)] ++
  alternatives "trait_modifiers_list" [
    ("trait_modifiers_list trait_modifier", nothing),
    ("empty", nothing)] ++
  alternatives "trait_member" [
    ("fully_qualified_class_name DOUBLE_COLON STRING", nothing),
    ("STRING", nothing)] ++
  alternatives "trait_modifier" [
    ("trait_member AS STRING SEMI", nothing),
    ("trait_member AS visibility_modifier STRING SEMI", nothing),
    ("trait_member AS visibility_modifier SEMI", nothing)] ++
  alternatives "trait_statement_list" [
    ("trait_statement_list trait_statement", nothing),
    ("empty", nothing)] ++
  alternatives "trait_statement" [
    ("method_modifiers FUNCTION is_reference STRING LPAREN parameter_list RPAREN method_body",
      nothing),
    ("variable_modifiers class_variable_declaration SEMI", nothing),
    ("USE fully_qualified_class_name LBRACE trait_modifiers_list RBRACE", nothing),
    ("USE fully_qualified_class_name SEMI", nothing)] ++
  alternatives "class_statement_list" [
    ("class_statement_list class_statement", nothing),
    ("empty", nothing)] ++
  alternatives "class_statement" [
    ("method_modifiers FUNCTION is_reference STRING LPAREN parameter_list RPAREN method_body",
      nothing),
    ("variable_modifiers class_variable_declaration SEMI", nothing),
    ("class_constant_declaration SEMI", nothing),
    ("USE fully_qualified_class_name LBRACE trait_modifiers_list RBRACE", nothing),
    ("USE fully_qualified_class_name SEMI", nothing)] ++
  alternatives "class_variable_declaration" [
    ("class_variable_declaration COMMA VARIABLE EQUALS static_scalar", nothing),
    ("VARIABLE EQUALS static_scalar", nothing),
    ("class_variable_declaration COMMA VARIABLE", nothing),
    ("VARIABLE", nothing)] ++
  alternatives "class_constant_declaration" [
    ("class_constant_declaration COMMA STRING EQUALS static_expr", nothing),
    ("CONST STRING EQUALS static_expr", nothing)] ++
  alternatives "interface_list" [
    ("interface_list COMMA fully_qualified_class_name", nothing),
    ("fully_qualified_class_name", nothing)] ++
  alternatives "interface_extends_list" [("EXTENDS interface_list", nothing), ("empty", nothing)] ++
  alternatives "variable_modifiers" [("non_empty_member_modifiers", nothing), ("VAR", nothing)] ++
  alternatives "method_modifiers" [("non_empty_member_modifiers", nothing), ("empty", nothing)] ++
  alternatives "method_body" [
    ("LBRACE inner_statement_list RBRACE", nothing),
    ("SEMI", nothing)] ++
  alternatives "non_empty_member_modifiers" [
    ("non_empty_member_modifiers member_modifier", nothing),
    ("member_modifier", nothing)] ++
  alternatives "visibility_modifier" [
    ("PUBLIC", nothing), ("PROTECTED", nothing), ("PRIVATE", nothing)] ++
  alternatives "member_modifier" [
    ("visibility_modifier", nothing), ("STATIC", nothing), ("ABSTRACT", nothing),
    ("FINAL", nothing)] ++
  alternatives "is_reference" [("AND", nothing), ("empty", nothing)] ++
  alternatives "parameter_list" [
    ("parameter_list COMMA parameter", snoc 1 3),
    ("parameter", single 1),
    ("empty", emptyList)] ++
  alternatives "parameter" [
    ("VARIABLE", formal 1),
    ("class_name VARIABLE", formal 2),
    ("AND VARIABLE", formal 2),
    ("class_name AND VARIABLE", formal 3),
    ("VARIABLE EQUALS static_scalar", formal 1 (some 3)),
    ("class_name VARIABLE EQUALS static_scalar", formal 2 (some 4)),
    ("AND VARIABLE EQUALS static_scalar", formal 2 (some 4)),
    ("class_name AND VARIABLE EQUALS static_scalar", formal 3 (some 5))]

end PhpMigration.Php.Grammar
