/-
Expressions of PHP.

A reference to a member carries the member's name and the subscripts written behind it: the
subscripts are applied to the access or the call, and not to the name.  Parentheses leave no
trace.
-/
import PhpMigration.Php.Grammar.Basic

namespace PhpMigration.Php.Grammar

/-- A subscript in braces. -/
def stringOffset : Node := .other "StringOffset"

/-- A subscript applied to what stands before it. -/
def subscript (base offset : Node) : Node :=
  match offset with
  | .arrayOffset _ index => .arrayOffset base index
  | other => other

/-- An access to a member, or a call of it if there are arguments, with its subscripts. -/
def access (object member arguments : Node) : Node :=
  match member with
  | .list (name :: subscripts) =>
    let reached := match arguments with
      | .list all => .methodCall object name all
      | _ => .objectProperty object name
    subscripts.foldl subscript reached
  | _ => .objectProperty object member

/-- Further accesses, one after another. -/
def accessEach (object : Node) (further : List Node) : Node :=
  further.foldl
    (fun object next => match next with
      | .list [member, arguments] => access object member arguments
      | _ => object) object

/-- An access to a member of something that is no variable, which takes no subscripts. -/
def accessOnly (object member arguments : Node) : Except SyntaxFault Node :=
  match member with
  | .list (_ :: _ :: _) => throw .subscriptAfterProperty
  | _ => pure (access object member arguments)

/-- A variable by its name with the dollar sign, or by an expression. -/
def namedVariable (n : Nat) : Build := make fun v => .variable (v n)

/-- A compound assignment. -/
def assignOp : Build := make fun v => .assignOp (v 2) (v 1) (v 3)

/-- An operation on one operand. -/
def unary : Build := make fun v => .unaryOp (v 1) (v 2)

/-- A call of a function. -/
def functionCall (name : (Nat → Node) → Node) (arguments : Nat) : Build :=
  make fun v => .functionCall (name v) (items (v arguments))

/-- A call of a method of a class. -/
def staticCall (name arguments : Nat) : Build :=
  make fun v => .staticMethodCall (v 1) (v name) (items (v arguments))

/-- The operators with two operands that are no assignments. -/
def binaryTokens : List String :=
  ["BOOLEAN_AND", "BOOLEAN_OR", "LOGICAL_AND", "LOGICAL_OR", "LOGICAL_XOR", "AND", "OR", "XOR",
    "CONCAT", "PLUS", "MINUS", "MUL", "DIV", "SL", "SR", "MOD", "IS_IDENTICAL",
    "IS_NOT_IDENTICAL", "IS_EQUAL", "IS_NOT_EQUAL", "IS_SMALLER", "IS_SMALLER_OR_EQUAL",
    "IS_GREATER", "IS_GREATER_OR_EQUAL"]

/-- The compound assignments. -/
def assignTokens : List String :=
  ["PLUS_EQUAL", "MINUS_EQUAL", "MUL_EQUAL", "DIV_EQUAL", "CONCAT_EQUAL", "MOD_EQUAL", "AND_EQUAL",
    "OR_EQUAL", "XOR_EQUAL", "SL_EQUAL", "SR_EQUAL"]

/-- The casts. -/
def castTokens : List String :=
  ["INT_CAST", "DOUBLE_CAST", "STRING_CAST", "ARRAY_CAST", "OBJECT_CAST", "BOOL_CAST",
    "UNSET_CAST", "BINARY_CAST"]

/-- Expressions. -/
def expressionRules : List Rule :=
  alternatives "expr" ([
    ("variable", part 1),
    ("variable EQUALS expr", make fun v => .assignment (v 1) (v 3)),
    ("variable EQUALS AND expr", make fun v => .assignment (v 1) (v 4)),
    ("NEW class_name_reference ctor_arguments", construct "New"),
    ("expr OBJECT_OPERATOR object_property method_or_not", fun v => accessOnly (v 1) (v 3) (v 4)),
    ("CLONE expr", construct "Clone"),
    ("LIST LPAREN assignment_list RPAREN EQUALS expr", construct "ListAssignment"),
    ("expr LBRACE dim_offset RBRACE", make fun _ => stringOffset),
    ("scalar", part 1),
    ("ARRAY LPAREN array_pair_list RPAREN", make fun v => .array (items (v 3))),
    ("LBRACKET array_pair_list RBRACKET", make fun v => .array (items (v 2))),
    ("FUNCTION is_reference LPAREN parameter_list RPAREN lexical_vars LBRACE inner_statement_list RBRACE",
      construct "Closure")] ++
    assignTokens.map (fun t => ("variable " ++ t ++ " expr", assignOp)) ++
    binaryTokens.map (fun t => ("expr " ++ t ++ " expr", binary)) ++ [
    ("expr INSTANCEOF expr", binary),
    ("expr INSTANCEOF STATIC", binary),
    ("PLUS expr", unary),
    ("MINUS expr", unary),
    ("NOT expr", unary),
    ("BOOLEAN_NOT expr", unary),
    ("expr QUESTION expr COLON expr", make fun v => .ternary (v 1) (v 3) (v 5)),
    ("expr QUESTION COLON expr", make fun v => .ternary (v 1) (v 1) (v 4)),
    ("INC variable", make fun v => .stepBefore (v 1) (v 2)),
    ("DEC variable", make fun v => .stepBefore (v 1) (v 2)),
    ("variable INC", make fun v => .stepBehind (v 2) (v 1)),
    ("variable DEC", make fun v => .stepBehind (v 2) (v 1))] ++
    castTokens.map (fun t => (t ++ " expr", construct "Cast")) ++ [
    ("ISSET LPAREN isset_variables RPAREN", construct "IsSet"),
    ("EMPTY LPAREN expr RPAREN", construct "Empty"),
    ("EVAL LPAREN expr RPAREN", construct "Eval"),
    ("INCLUDE expr", construct "Include"),
    ("INCLUDE_ONCE expr", construct "Include"),
    ("REQUIRE expr", construct "Require"),
    ("REQUIRE_ONCE expr", construct "Require"),
    ("exit_or_die", construct "Exit"),
    ("exit_or_die LPAREN RPAREN", construct "Exit"),
    ("exit_or_die LPAREN expr RPAREN", construct "Exit"),
    ("PRINT expr", make fun v => .print (v 2)),
    ("AT expr", construct "Silence"),
    ("LPAREN expr RPAREN", part 2)])

/-- Classes named where one is made or looked into. -/
def classNameRules : List Rule :=
  alternatives "class_name_reference" [
    ("class_name", part 1),
    ("dynamic_class_name_reference", part 1)] ++
  alternatives "class_name" [
    ("namespace_name", part 1),
    ("NS_SEPARATOR namespace_name", make fun v => .text (rootedName (v 2))),
    ("NAMESPACE NS_SEPARATOR namespace_name", make fun v => .text (joinNames (v 1) (v 3))),
    ("STATIC", make fun v => .text (Text.lower (textOf (v 1))))] ++
  alternatives "dynamic_class_name_reference" [
    ("base_variable OBJECT_OPERATOR object_property dynamic_class_name_variable_properties",
      nothing),
    ("base_variable", nothing)] ++
  alternatives "dynamic_class_name_variable_properties" [
    ("dynamic_class_name_variable_properties dynamic_class_name_variable_property", nothing),
    ("empty", nothing)] ++
  alternatives "dynamic_class_name_variable_property" [("OBJECT_OPERATOR object_property", nothing)] ++
  alternatives "ctor_arguments" [
    ("LPAREN function_call_parameter_list RPAREN", nothing),
    ("empty", nothing)] ++
  alternatives "assignment_list" [
    ("assignment_list COMMA assignment_list_element", snoc 1 3),
    ("assignment_list_element", single 1)] ++
  alternatives "assignment_list_element" [
    ("variable", part 1),
    ("empty", nothing),
    ("LIST LPAREN assignment_list RPAREN", part 3)]

/-- Variables, their members, and calls. -/
def variableRules : List Rule :=
  alternatives "variable" [
    ("base_variable_with_function_calls OBJECT_OPERATOR object_property method_or_not variable_properties",
      make fun v => accessEach (access (v 1) (v 3) (v 4)) (items (v 5))),
    ("base_variable_with_function_calls", part 1),
    ("variable LBRACKET dim_offset RBRACKET", make fun v => .arrayOffset (v 1) (v 3))] ++
  alternatives "base_variable_with_function_calls" [
    ("base_variable", part 1),
    ("function_call", part 1)] ++
  alternatives "function_call" [
    ("namespace_name LPAREN function_call_parameter_list RPAREN", functionCall (· 1) 3),
    ("NS_SEPARATOR namespace_name LPAREN function_call_parameter_list RPAREN",
      functionCall (fun v => .text (rootedName (v 2))) 4),
    ("NAMESPACE NS_SEPARATOR namespace_name LPAREN function_call_parameter_list RPAREN",
      functionCall (fun v => .text (joinNames (v 1) (v 3))) 5),
    ("class_name DOUBLE_COLON STRING LPAREN function_call_parameter_list RPAREN", staticCall 3 5),
    ("class_name DOUBLE_COLON variable_without_objects LPAREN function_call_parameter_list RPAREN",
      staticCall 3 5),
    ("variable_class_name DOUBLE_COLON STRING LPAREN function_call_parameter_list RPAREN",
      staticCall 3 5),
    ("variable_class_name DOUBLE_COLON variable_without_objects LPAREN function_call_parameter_list RPAREN",
      staticCall 3 5),
    ("class_name DOUBLE_COLON LBRACE expr RBRACE LPAREN function_call_parameter_list RPAREN",
      staticCall 4 7),
    ("variable_class_name DOUBLE_COLON LBRACE expr RBRACE LPAREN function_call_parameter_list RPAREN",
      staticCall 4 7),
    ("variable_without_objects LPAREN function_call_parameter_list RPAREN", functionCall (· 1) 3),
    ("BACKTICK encaps_list BACKTICK",
      make fun v => .functionCall (.text "shell_exec") [.parameter (v 2)])] ++
  alternatives "method_or_not" [
    ("LPAREN function_call_parameter_list RPAREN", part 2),
    ("empty", nothing)] ++
  alternatives "variable_properties" [
    ("variable_properties variable_property", snoc 1 2),
    ("empty", emptyList)] ++
  alternatives "variable_property" [
    ("OBJECT_OPERATOR object_property method_or_not", make fun v => .list [v 2, v 3])] ++
  alternatives "base_variable" [
    ("simple_indirect_reference", part 1),
    ("static_member", part 1)] ++
  alternatives "simple_indirect_reference" [
    ("DOLLAR simple_indirect_reference", namedVariable 2),
    ("reference_variable", part 1)] ++
  alternatives "static_member" [
    ("class_name DOUBLE_COLON variable_without_objects", construct "StaticProperty"),
    ("variable_class_name DOUBLE_COLON variable_without_objects", construct "StaticProperty"),
    ("class_name DOUBLE_COLON LBRACE expr RBRACE", construct "StaticProperty"),
    ("variable_class_name DOUBLE_COLON LBRACE expr RBRACE", construct "StaticProperty")] ++
  alternatives "variable_class_name" [("reference_variable", part 1)] ++
  alternatives "reference_variable" [
    ("reference_variable LBRACKET dim_offset RBRACKET", make fun v => .arrayOffset (v 1) (v 3)),
    ("reference_variable LBRACE expr RBRACE", make fun _ => stringOffset),
    ("compound_variable", part 1)] ++
  alternatives "compound_variable" [
    ("VARIABLE", namedVariable 1),
    ("DOLLAR LBRACE expr RBRACE", namedVariable 3)] ++
  alternatives "dim_offset" [("expr", part 1), ("empty", nothing)] ++
  alternatives "object_property" [
    ("variable_name object_dim_list", make fun v => .list (v 1 :: items (v 2))),
    ("variable_without_objects", single 1)] ++
  alternatives "object_dim_list" [
    ("empty", emptyList),
    ("object_dim_list LBRACKET dim_offset RBRACKET",
      make fun v => .list (items (v 1) ++ [.arrayOffset .absent (v 3)])),
    ("object_dim_list LBRACE expr RBRACE",
      make fun v => .list (items (v 1) ++ [stringOffset]))] ++
  alternatives "variable_name" [("STRING", part 1), ("LBRACE expr RBRACE", part 2)] ++
  alternatives "variable_without_objects" [("simple_indirect_reference", part 1)]

/-- An element without a key. -/
def element (n : Nat) : Build := make fun v => .arrayElement .absent (v n)

/-- The last of several elements without a key. -/
def snocElement (n : Nat) : Build :=
  make fun v => .list (items (v 1) ++ [.arrayElement .absent (v n)])

/-- The last of several elements with a key. -/
def snocEntry (key value : Nat) : Build :=
  make fun v => .list (items (v 1) ++ [.arrayElement (v key) (v value)])

/-- Arrays and arguments. -/
def listRules : List Rule :=
  alternatives "array_pair_list" [
    ("empty", emptyList),
    ("non_empty_array_pair_list possible_comma", part 1)] ++
  alternatives "non_empty_array_pair_list" [
    ("non_empty_array_pair_list COMMA AND variable", snocElement 4),
    ("non_empty_array_pair_list COMMA expr", snocElement 3),
    ("AND variable", make fun v => .list [.arrayElement .absent (v 2)]),
    ("expr", make fun v => .list [.arrayElement .absent (v 1)]),
    ("non_empty_array_pair_list COMMA expr DOUBLE_ARROW AND variable", snocEntry 3 6),
    ("non_empty_array_pair_list COMMA expr DOUBLE_ARROW expr", snocEntry 3 5),
    ("expr DOUBLE_ARROW AND variable", make fun v => .list [.arrayElement (v 1) (v 4)]),
    ("expr DOUBLE_ARROW expr", make fun v => .list [.arrayElement (v 1) (v 3)])] ++
  alternatives "possible_comma" [("empty", nothing), ("COMMA", nothing)] ++
  alternatives "function_call_parameter_list" [
    ("function_call_parameter_list COMMA function_call_parameter", snoc 1 3),
    ("function_call_parameter", single 1),
    ("empty", emptyList)] ++
  alternatives "function_call_parameter" [
    ("expr", make fun v => .parameter (v 1)),
    ("AND variable", make fun v => .parameter (v 2))] ++
  alternatives "lexical_vars" [
    ("USE LPAREN lexical_var_list RPAREN", nothing),
    ("empty", nothing)] ++
  alternatives "lexical_var_list" [
    ("lexical_var_list COMMA AND VARIABLE", nothing),
    ("lexical_var_list COMMA VARIABLE", nothing),
    ("AND VARIABLE", nothing),
    ("VARIABLE", nothing)] ++
  alternatives "isset_variables" [
    ("isset_variables COMMA variable", nothing),
    ("variable", nothing)] ++
  alternatives "exit_or_die" [("EXIT", nothing), ("DIE", nothing)]

end PhpMigration.Php.Grammar
