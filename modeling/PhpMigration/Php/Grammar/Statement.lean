/-
Statements of PHP.

Whole programs, the statements at the top and inside functions, and the control structures in
both their forms: the form with a colon and a closing keyword stands for a block.
-/
import PhpMigration.Php.Grammar.Basic

namespace PhpMigration.Php.Grammar

/-- A loop over a collection; the first of two targets is the key. -/
def foreachLoop (source first second body : Node) : Node :=
  match second with
  | .absent => .foreach source .absent first body
  | second =>
    let key := match first with
      | .foreachVariable target => target
      | other => other
    .foreach source key second body

/-- The part of a program in which nothing is nested. -/
def topRules : List Rule :=
  alternatives "start" [("top_statement_list", part 1)] ++
  alternatives "top_statement_list" [
    ("top_statement_list top_statement", snoc 1 2),
    ("empty", emptyList)] ++
  alternatives "top_statement" [
    ("statement", part 1),
    ("function_declaration_statement", part 1),
    ("class_declaration_statement", part 1),
    ("HALT_COMPILER LPAREN RPAREN SEMI", nothing),
    ("NAMESPACE namespace_name SEMI", construct "Namespace"),
    ("NAMESPACE LBRACE top_statement_list RBRACE", construct "Namespace"),
    ("NAMESPACE namespace_name LBRACE top_statement_list RBRACE", construct "Namespace"),
    ("CONST constant_declarations SEMI", construct "ConstantDeclarations"),
    ("USE use_declarations SEMI", construct "UseDeclarations")] ++
  alternatives "use_declarations" [
    ("use_declarations COMMA use_declaration", nothing),
    ("use_declaration", nothing)] ++
  alternatives "use_declaration" [
    ("namespace_name", nothing),
    ("NS_SEPARATOR namespace_name", nothing),
    ("namespace_name AS STRING", nothing),
    ("NS_SEPARATOR namespace_name AS STRING", nothing)] ++
  alternatives "constant_declarations" [
    ("constant_declarations COMMA constant_declaration", nothing),
    ("constant_declaration", nothing)] ++
  alternatives "constant_declaration" [("STRING EQUALS static_expr", nothing)]

/-- Statements. -/
def statementRules : List Rule :=
  alternatives "inner_statement_list" [
    ("inner_statement_list inner_statement", snoc 1 2),
    ("empty", emptyList)] ++
  alternatives "inner_statement" [
    ("statement", part 1),
    ("function_declaration_statement", part 1),
    ("class_declaration_statement", part 1),
    ("HALT_COMPILER LPAREN RPAREN SEMI", fun _ => throw .nestedHalt),
    ("YIELD SEMI", construct "Yield"),
    ("YIELD expr SEMI", construct "Yield")] ++
  alternatives "statement" [
    ("LBRACE inner_statement_list RBRACE", blockOf 2),
    ("IF LPAREN expr RPAREN statement elseif_list else_single",
      make fun v => .ifElse (v 3) (v 5) (items (v 6)) (v 7)),
    ("IF LPAREN expr RPAREN COLON inner_statement_list new_elseif_list new_else_single ENDIF SEMI",
      make fun v => .ifElse (v 3) (.block (items (v 6))) (items (v 7)) (v 8)),
    ("WHILE LPAREN expr RPAREN while_statement", make fun v => .whileLoop (v 3) (v 5)),
    ("DO statement WHILE LPAREN expr RPAREN SEMI", construct "DoWhile"),
    ("FOR LPAREN for_expr SEMI for_expr SEMI for_expr RPAREN for_statement",
      make fun v => .forLoop (items (v 3)) (items (v 5)) (items (v 7)) (v 9)),
    ("FOREACH LPAREN expr AS foreach_variable foreach_optional_arg RPAREN foreach_statement",
      make fun v => foreachLoop (v 3) (v 5) (v 6) (v 8)),
    ("SWITCH LPAREN expr RPAREN switch_case_list", construct "Switch"),
    ("BREAK SEMI", construct "Break"),
    ("BREAK expr SEMI", construct "Break"),
    ("CONTINUE SEMI", construct "Continue"),
    ("CONTINUE expr SEMI", construct "Continue"),
    ("RETURN SEMI", make fun _ => .returnValue .absent),
    ("RETURN expr SEMI", make fun v => .returnValue (v 2)),
    ("GLOBAL global_var_list SEMI", construct "Global"),
    ("STATIC static_var_list SEMI", construct "Static"),
    ("ECHO echo_expr_list SEMI", make fun v => .echo (items (v 2))),
    ("INLINE_HTML", make fun v => .inlineHtml (v 1)),
    ("expr SEMI", part 1),
    ("UNSET LPAREN unset_variables RPAREN SEMI", construct "Unset"),
    ("SEMI", nothing),
    ("TRY LBRACE inner_statement_list RBRACE additional_catches maybe_finally", construct "Try"),
    ("THROW expr SEMI", construct "Throw"),
    ("DECLARE LPAREN declare_list RPAREN declare_statement", construct "Declare")] ++
  alternatives "additional_catches" [
    ("additional_catches CATCH LPAREN fully_qualified_class_name VARIABLE RPAREN LBRACE inner_statement_list RBRACE",
      nothing),
    ("empty", nothing)] ++
  alternatives "maybe_finally" [
    ("FINALLY LBRACE inner_statement_list RBRACE", nothing),
    ("empty", nothing)] ++
  alternatives "declare_list" [
    ("STRING EQUALS static_scalar", nothing),
    ("declare_list COMMA STRING EQUALS static_scalar", nothing)] ++
  alternatives "declare_statement" [
    ("statement", nothing),
    ("COLON inner_statement_list ENDDECLARE SEMI", nothing)]

/-- Branches and loops. -/
def controlRules : List Rule :=
  alternatives "elseif_list" [
    ("empty", emptyList),
    ("elseif_list ELSEIF LPAREN expr RPAREN statement",
      make fun v => .list (items (v 1) ++ [.elseIf (v 4) (v 6)]))] ++
  alternatives "else_single" [
    ("empty", nothing),
    ("ELSE statement", make fun v => .elseBranch (v 2))] ++
  alternatives "new_elseif_list" [
    ("empty", emptyList),
    ("new_elseif_list ELSEIF LPAREN expr RPAREN COLON inner_statement_list",
      make fun v => .list (items (v 1) ++ [.elseIf (v 4) (.block (items (v 7)))]))] ++
  alternatives "new_else_single" [
    ("empty", nothing),
    ("ELSE COLON inner_statement_list", make fun v => .elseBranch (.block (items (v 3))))] ++
  alternatives "while_statement" [
    ("statement", part 1),
    ("COLON inner_statement_list ENDWHILE SEMI", blockOf 2)] ++
  alternatives "for_expr" [("empty", emptyList), ("non_empty_for_expr", part 1)] ++
  alternatives "non_empty_for_expr" [
    ("non_empty_for_expr COMMA expr", snoc 1 3),
    ("expr", single 1)] ++
  alternatives "for_statement" [
    ("statement", part 1),
    ("COLON inner_statement_list ENDFOR SEMI", blockOf 2)] ++
  alternatives "foreach_variable" [
    ("LIST LPAREN assignment_list RPAREN", make fun v => .foreachVariable (v 3)),
    ("variable", make fun v => .foreachVariable (v 1)),
    ("AND variable", make fun v => .foreachVariable (v 2))] ++
  alternatives "foreach_optional_arg" [
    ("empty", nothing),
    ("DOUBLE_ARROW foreach_variable", part 2)] ++
  alternatives "foreach_statement" [
    ("statement", part 1),
    ("COLON inner_statement_list ENDFOREACH SEMI", blockOf 2)] ++
  alternatives "switch_case_list" [
    ("LBRACE case_list RBRACE", nothing),
    ("LBRACE SEMI case_list RBRACE", nothing),
    ("COLON case_list ENDSWITCH SEMI", nothing),
    ("COLON SEMI case_list ENDSWITCH SEMI", nothing)] ++
  alternatives "case_list" [
    ("empty", nothing),
    ("case_list CASE expr case_separator inner_statement_list", nothing),
    ("case_list DEFAULT case_separator inner_statement_list", nothing)] ++
  alternatives "case_separator" [("COLON", nothing), ("SEMI", nothing)] ++
  alternatives "global_var_list" [
    ("global_var_list COMMA global_var", nothing),
    ("global_var", nothing)] ++
  alternatives "global_var" [
    ("VARIABLE", nothing),
    ("DOLLAR variable", nothing),
    ("DOLLAR LBRACE expr RBRACE", nothing)] ++
  alternatives "static_var_list" [
    ("static_var_list COMMA static_var", nothing),
    ("static_var", nothing)] ++
  alternatives "static_var" [
    ("VARIABLE EQUALS static_scalar", nothing),
    ("VARIABLE", nothing)] ++
  alternatives "echo_expr_list" [
    ("echo_expr_list COMMA expr", snoc 1 3),
    ("expr", single 1)] ++
  alternatives "unset_variables" [
    ("unset_variables COMMA unset_variable", nothing),
    ("unset_variable", nothing)] ++
  alternatives "unset_variable" [("variable", nothing)]

end PhpMigration.Php.Grammar
