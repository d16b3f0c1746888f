/-
Reading JavaScript: from tokens to trees.

The functions below are the grammar of the language, one for each of its kinds of phrase: given how
its parts are read, it yields a tree with the tokens behind it.  `parse` reads all kinds of phrases
by these rules.  They know nothing of how a tree is printed: what they agree on with the printer is
the numbering of the levels of binding, and that agreement is proved where it is used.

A text is read as the body of a module that is wrapped in a function, as a server runs it: strict,
with `return` allowed at the outermost level.  Of the rules on top of the grammar two are asked for,
that only a name or a member is assigned to, and that a constant is declared with its value.  The
others are about names and what they stand for, such as that none is declared twice; they can be
looked up in the tree, so a reader takes them as a test of trees (`Alphabet.read`).  A branch that
goes on with `else if` is read as a block that holds nothing but the choice, because the trees have
no other branches.

Phrases that have no tree here are not read: among them classes, arrows, templates, spread
elements, declarations by `let` and loops without braces.  A line may end only where a statement
begins or a block ends, so a text that relies on semicolons being supplied is not read either.

An expression in the first part of a counting loop may not hold the operator `in` outside of
brackets, for otherwise `for (a in b` could not be told from the loop over the names of an object;
`inOk` says whether it may.
-/
import PhpMigration.JavaScript.Node
import PhpMigration.Proofs.JavaScript.Lexer

namespace PhpMigration.JavaScript

namespace Grammar

/-! ### Words and operators -/

/-- The words that are no names in a strict module. -/
def reservedWords : List String :=
  ["await", "break", "case", "catch", "class", "const", "continue", "debugger",
    "default", "delete", "do", "else", "enum", "export", "extends", "false", "finally",
    "for", "function", "if", "implements", "import", "in", "instanceof", "interface", "let", "new",
    "null", "package", "private", "protected", "public", "return", "static", "super", "switch",
    "this", "throw", "true", "try", "typeof", "var", "void", "while", "with", "yield"]

/-- What stands before its operand. -/
def unaryOperators : List String := ["!", "-", "+", "~", "typeof", "void", "delete"]

/-- What counts up or down. -/
def updateOperators : List String := ["++", "--"]

/-- What puts a value in a place. -/
def assignmentOperators : List String :=
  ["=", "+=", "-=", "*=", "/=", "%=", "**=", "<<=", ">>=", ">>>=", "&=", "^=", "|=", "&&=", "||=",
    "??="]

/-- The operators between two operands that group to the left, with how tightly they bind. -/
def levels : List (String × Nat) :=
  [("||", 4), ("&&", 5), ("|", 6), ("^", 7), ("&", 8), ("==", 9), ("!=", 9), ("===", 9),
    ("!==", 9), ("<", 10), (">", 10), ("<=", 10), (">=", 10), ("instanceof", 10), ("in", 10),
    ("<<", 11), (">>", 11), (">>>", 11), ("+", 13), ("-", 13), ("*", 14), ("/", 14), ("%", 14)]

/-- The operators that need not look at their second operand. -/
def logicalOperators : List String := ["||", "&&"]

/-- The symbol of a token that may be an operator. -/
def symbol? : Token → Option String
  | .word name => some name
  | .mark symbol => some symbol
  | _ => none

/-- The first token, if it is the given one, is passed over. -/
def skip? (t : Token) : List Token → Option (List Token)
  | [] => none
  | u :: us => if u = t then some us else none

/-- The operator that comes first, if it is one of some. -/
def oneOf? (operators : List String) : List Token → Option (String × List Token)
  | [] => none
  | t :: ts =>
    match symbol? t with
    | some s => if operators.contains s then some (s, ts) else none
    | none => none

/-- The operator between two operands that comes first, with how tightly it binds, unless it binds
less tightly than is needed here. -/
def operator? (inOk : Bool) (least : Nat) : List Token → Option ((String × Nat) × List Token)
  | [] => none
  | t :: ts =>
    match symbol? t with
    | some s =>
      match levels.lookup s with
      | some level =>
        if least ≤ level ∧ (inOk = true ∨ s ≠ "in") then some ((s, level), ts) else none
      | none => none
    | none => none

/-- The tree of two operands with an operator between them. -/
def joined (operator : String) (left right : Node) : Node :=
  if logicalOperators.contains operator then .logical (.text operator) left right
  else .binary (.text operator) left right

/-- A name or a member, which may be assigned to. -/
def isPlace : Node → Bool
  | .identifier _ | .member .. => true
  | _ => false

/-- The variable is declared with a value. -/
def hasValue : Node → Bool
  | .declarator _ value => value.isPresent
  | _ => false

/-- What a word stands for by itself. -/
def ofWord? (name : String) : Option Node :=
  if name = "null" then some .nullLiteral
  else if name = "true" then some (.booleanLiteral (.flag true))
  else if name = "false" then some (.booleanLiteral (.flag false))
  else if reservedWords.contains name then none
  else some (.identifier (.text name))

/-- A name that is no reserved word. -/
def binding? : List Token → Option (Node × List Token)
  | .word name :: ts =>
    if reservedWords.contains name then none else some (.identifier (.text name), ts)
  | _ => none

/-! ### Phrases -/

/-- The kinds of phrases, each with the type of what it is read as. -/
inductive Phrase : Type → Type where
  | expression (inOk : Bool) : Phrase Node
  | assignment (inOk : Bool) : Phrase Node
  | binary (inOk : Bool) (least : Nat) : Phrase Node
  | binaryFrom (inOk : Bool) (least : Nat) (left : Node) : Phrase Node
  | unary : Phrase Node
  | leftHandSide : Phrase Node
  | members (object : Node) : Phrase Node
  | primary : Phrase Node
  | elements (close : Token) : Phrase (List Node)
  | properties : Phrase (List Node)
  | propertyList : Phrase (List Node)
  | propertyKey : Phrase (Node × Bool)
  | listOf (item : Phrase Node) : Phrase (List Node)
  | name : Phrase Node
  | target : Phrase Node
  | initialValue : Phrase Node
  | declarator : Phrase Node
  | parameter : Phrase Node
  | parameters : Phrase (List Node)
  | part (inOk : Bool) (close : Token) : Phrase Node
  | condition : Phrase Node
  | statement : Phrase Node
  | statements : Phrase (List Node)
  | block : Phrase Node
  | otherwise : Phrase Node

/-- A way to read phrases of every kind: it yields what is read with the tokens behind it. -/
abbrev Parser : Type 1 := ⦃α : Type⦄ → Phrase α → List Token → Option (α × List Token)

section Rules

variable (parse : Parser)

/-! ### Expressions -/

/-- Any expression. -/
def expression (inOk : Bool) (ts : List Token) : Option (Node × List Token) := do
  let (first, ts) ← parse (.assignment inOk) ts
  match skip? (.mark ",") ts with
  | some ts => do
    let (rest, ts) ← parse (.listOf (.assignment inOk)) ts
    pure (.sequence (first :: rest), ts)
  | none => pure (first, ts)

/-- An assignment, a choice, or anything that binds more tightly. -/
def assignment (inOk : Bool) (ts : List Token) : Option (Node × List Token) := do
  let (left, ts) ← parse (.binary inOk 4) ts
  match skip? (.mark "?") ts with
  | some ts => do
    let (consequent, ts) ← parse (.assignment true) ts
    let ts ← skip? (.mark ":") ts
    let (alternate, ts) ← parse (.assignment inOk) ts
    pure (.conditional left consequent alternate, ts)
  | none =>
    match oneOf? assignmentOperators ts with
    | some (operator, ts) =>
      if isPlace left then do
        let (right, ts) ← parse (.assignment inOk) ts
        pure (.assignment (.text operator) left right, ts)
      else none
    | none => pure (left, ts)

/-- Operands with operators between them that bind at least so tightly. -/
def binary (inOk : Bool) (least : Nat) (ts : List Token) : Option (Node × List Token) := do
  let (left, ts) ← parse .unary ts
  parse (.binaryFrom inOk least left) ts

/-- The same when the first operand has been read. -/
def binaryFrom (inOk : Bool) (least : Nat) (left : Node) (ts : List Token) :
    Option (Node × List Token) :=
  match operator? inOk least ts with
  | some ((operator, level), ts) => do
    let (right, ts) ← parse (.binary inOk (level + 1)) ts
    parse (.binaryFrom inOk least (joined operator left right)) ts
  | none => pure (left, ts)

/-- An operand with the operators before it, or an increment or decrement. -/
def unary (ts : List Token) : Option (Node × List Token) :=
  match oneOf? unaryOperators ts with
  | some (operator, ts) => do
    let (argument, ts) ← parse .unary ts
    pure (.unary (.text operator) argument, ts)
  | none =>
    match oneOf? updateOperators ts with
    | some (operator, ts) => do
      let (argument, ts) ← parse .unary ts
      if isPlace argument then pure (.update (.text operator) argument true, ts) else none
    | none => do
      let (argument, ts) ← parse .leftHandSide ts
      match oneOf? updateOperators ts with
      | some (operator, ts) =>
        if isPlace argument then pure (.update (.text operator) argument false, ts) else none
      | none => pure (argument, ts)

/-- A primary expression with the accesses to members and the calls behind it. -/
def leftHandSide (ts : List Token) : Option (Node × List Token) := do
  let (object, ts) ← parse .primary ts
  parse (.members object) ts

/-- The same when the object has been read. -/
def members (object : Node) (ts : List Token) : Option (Node × List Token) :=
  match ts with
  | .mark "." :: .word name :: ts =>
    parse (.members (.member object (.identifier (.text name)) false)) ts
  | .mark "." :: _ => none
  | .mark "[" :: ts => do
    let (property, ts) ← parse (.expression true) ts
    let ts ← skip? (.mark "]") ts
    parse (.members (.member object property true)) ts
  | .mark "(" :: ts => do
    let (arguments, ts) ← parse (.elements (.mark ")")) ts
    parse (.members (.call object arguments)) ts
  | ts => pure (object, ts)

/-- What no operator can take apart. -/
def primary (ts : List Token) : Option (Node × List Token) :=
  match ts with
  | .word name :: ts => (ofWord? name).map fun e => (e, ts)
  | .number n 0 :: ts => pure (.numericLiteral (.number (.int n)), ts)
  | .text s :: ts => pure (.stringLiteral (.text s), ts)
  | .mark "(" :: ts => do
    let (e, ts) ← parse (.expression true) ts
    let ts ← skip? (.mark ")") ts
    pure (e, ts)
  | .mark "[" :: ts => do
    let (es, ts) ← parse (.elements (.mark "]")) ts
    pure (.arrayExpression es, ts)
  | .mark "\x7b" :: ts => do
    let (ps, ts) ← parse .properties ts
    pure (.objectExpression ps, ts)
  | _ => none

/-- The members of a list up to the token that closes it. -/
def elements (close : Token) (ts : List Token) : Option (List Node × List Token) :=
  match skip? close ts with
  | some ts => pure ([], ts)
  | none => do
    let (es, ts) ← parse (.listOf (.assignment true)) ts
    let ts ← skip? close ts
    pure (es, ts)

/-- The properties of an object up to the closing brace. -/
def properties (ts : List Token) : Option (List Node × List Token) :=
  match skip? (.mark "\x7d") ts with
  | some ts => pure ([], ts)
  | none => do
    let (ps, ts) ← parse .propertyList ts
    let ts ← skip? (.mark "\x7d") ts
    pure (ps, ts)

/-- Some properties, at least one. -/
def propertyList (ts : List Token) : Option (List Node × List Token) := do
  let ((key, computed), ts) ← parse .propertyKey ts
  let ts ← skip? (.mark ":") ts
  let (value, ts) ← parse (.assignment true) ts
  let first := Node.objectProperty key value computed
  match skip? (.mark ",") ts with
  | some ts => do
    let (rest, ts) ← parse .propertyList ts
    pure (first :: rest, ts)
  | none => pure ([first], ts)

/-- The key of a property, which is computed if it stands in brackets. -/
def propertyKey (ts : List Token) : Option ((Node × Bool) × List Token) :=
  match ts with
  | .word name :: ts => pure ((.identifier (.text name), false), ts)
  | .number n 0 :: ts => pure ((.numericLiteral (.number (.int n)), false), ts)
  | .text s :: ts => pure ((.stringLiteral (.text s), false), ts)
  | .mark "[" :: ts => do
    let (key, ts) ← parse (.assignment true) ts
    let ts ← skip? (.mark "]") ts
    pure ((key, true), ts)
  | _ => none

/-! ### Parts of statements -/

/-- Phrases of one kind with commas between them, at least one. -/
def listOf (item : Phrase Node) (ts : List Token) : Option (List Node × List Token) := do
  let (first, ts) ← parse item ts
  match skip? (.mark ",") ts with
  | some ts => do
    let (rest, ts) ← parse (.listOf item) ts
    pure (first :: rest, ts)
  | none => pure ([first], ts)

/-- What a declaration declares: a name, or some names in brackets. -/
def target (ts : List Token) : Option (Node × List Token) :=
  match skip? (.mark "[") ts with
  | none => binding? ts
  | some ts =>
    match skip? (.mark "]") ts with
    | some ts => pure (.arrayPattern [], ts)
    | none => do
      let (names, ts) ← parse (.listOf .name) ts
      let ts ← skip? (.mark "]") ts
      pure (.arrayPattern names, ts)

/-- The value behind an equals sign, if there is one. -/
def initialValue (ts : List Token) : Option (Node × List Token) :=
  match skip? (.mark "=") ts with
  | some ts => parse (.assignment true) ts
  | none => pure (.absent, ts)

/-- What is declared, with its value. -/
def declarator (ts : List Token) : Option (Node × List Token) := do
  let (name, ts) ← parse .target ts
  let (value, ts) ← parse .initialValue ts
  pure (.declarator name value, ts)

/-- A parameter with its default. -/
def parameter (ts : List Token) : Option (Node × List Token) := do
  let (name, ts) ← binding? ts
  match skip? (.mark "=") ts with
  | some ts => do
    let (value, ts) ← parse (.assignment true) ts
    pure (.assignmentPattern name value, ts)
  | none => pure (name, ts)

/-- The parameters of a function up to the closing parenthesis. -/
def parameters (ts : List Token) : Option (List Node × List Token) :=
  match skip? (.mark ")") ts with
  | some ts => pure ([], ts)
  | none => do
    let (params, ts) ← parse (.listOf .parameter) ts
    let ts ← skip? (.mark ")") ts
    pure (params, ts)

/-- An expression, which may be missing, up to the token that closes it. -/
def part (inOk : Bool) (close : Token) (ts : List Token) : Option (Node × List Token) :=
  match skip? close ts with
  | some ts => pure (.absent, ts)
  | none => do
    let (e, ts) ← parse (.expression inOk) ts
    let ts ← skip? close ts
    pure (e, ts)

/-- A condition in parentheses. -/
def condition (ts : List Token) : Option (Node × List Token) := do
  let ts ← skip? (.mark "(") ts
  let (e, ts) ← parse (.expression true) ts
  let ts ← skip? (.mark ")") ts
  pure (e, ts)

/-! ### Statements -/

/-- A statement. -/
def statement (ts : List Token) : Option (Node × List Token) :=
  match ts with
  | .mark "\x7b" :: _ => parse .block ts
  | .word "return" :: ts => do
    let (argument, ts) ← parse (.part true (.mark ";")) ts
    pure (.returnStatement argument, ts)
  | .word "const" :: ts => do
    let (declared, ts) ← parse (.listOf .declarator) ts
    let ts ← skip? (.mark ";") ts
    if declared.all hasValue then pure (.declaration (.text "const") declared, ts) else none
  | .word "function" :: ts => do
    let (name, ts) ← binding? ts
    let ts ← skip? (.mark "(") ts
    let (params, ts) ← parse .parameters ts
    let (body, ts) ← parse .block ts
    pure (.functionDeclaration name params body, ts)
  | .word "if" :: ts => do
    let (test, ts) ← parse .condition ts
    let (consequent, ts) ← parse .block ts
    let (alternate, ts) ← parse .otherwise ts
    pure (.ifStatement test consequent alternate, ts)
  | .word "while" :: ts => do
    let (test, ts) ← parse .condition ts
    let (body, ts) ← parse .block ts
    pure (.whileStatement test body, ts)
  | .word "for" :: ts => do
    let ts ← skip? (.mark "(") ts
    match skip? (.word "const") ts with
    | some ts => do
      let (name, ts) ← parse .target ts
      let ts ← skip? (.word "of") ts
      let (right, ts) ← parse (.assignment true) ts
      let ts ← skip? (.mark ")") ts
      let (body, ts) ← parse .block ts
      pure (.forOf (.declaration (.text "const") [.declarator name .absent]) right body, ts)
    | none => do
      let (start, ts) ← parse (.part false (.mark ";")) ts
      let (test, ts) ← parse (.part true (.mark ";")) ts
      let (update, ts) ← parse (.part true (.mark ")")) ts
      let (body, ts) ← parse .block ts
      pure (.forStatement start test update body, ts)
  | ts => do
    let (e, ts) ← parse (.expression true) ts
    let ts ← skip? (.mark ";") ts
    pure (.expressionStatement e, ts)

/-- Statements up to a closing brace or the end. -/
def statements (ts : List Token) : Option (List Node × List Token) :=
  match ts with
  | [] => pure ([], [])
  | .lineBreak :: ts => parse .statements ts
  | .mark "\x7d" :: _ => pure ([], ts)
  | ts => do
    let (first, ts) ← parse .statement ts
    let (rest, ts) ← parse .statements ts
    pure (first :: rest, ts)

/-- Statements in braces. -/
def block (ts : List Token) : Option (Node × List Token) := do
  let ts ← skip? (.mark "\x7b") ts
  let (body, ts) ← parse .statements ts
  let ts ← skip? (.mark "\x7d") ts
  pure (.block body, ts)

/-- The second branch of a choice, if there is one. -/
def otherwise (ts : List Token) : Option (Node × List Token) :=
  match skip? (.word "else") ts with
  | none => pure (.absent, ts)
  | some ts =>
    match skip? (.word "if") ts with
    | some _ => do
      let (choice, ts) ← parse .statement ts
      pure (.block [choice], ts)
    | none => parse .block ts

/-! ### Reading -/

/-- The rule for each kind of phrases, given how its parts are read. -/
def rule {α : Type} : Phrase α → List Token → Option (α × List Token)
  | .expression inOk => expression parse inOk
  | .assignment inOk => assignment parse inOk
  | .binary inOk least => binary parse inOk least
  | .binaryFrom inOk least left => binaryFrom parse inOk least left
  | .unary => unary parse
  | .leftHandSide => leftHandSide parse
  | .members object => members parse object
  | .primary => primary parse
  | .elements close => elements parse close
  | .properties => properties parse
  | .propertyList => propertyList parse
  | .propertyKey => propertyKey parse
  | .listOf item => listOf parse item
  | .name => binding?
  | .target => target parse
  | .initialValue => initialValue parse
  | .declarator => declarator parse
  | .parameter => parameter parse
  | .parameters => parameters parse
  | .part inOk close => part parse inOk close
  | .condition => condition parse
  | .statement => statement parse
  | .statements => statements parse
  | .block => block parse
  | .otherwise => otherwise parse

attribute [grind =] rule

end Rules

namespace Phrase

/-- A rule may begin with a phrase of a lower rank only. -/
def rank {α : Type} : Phrase α → Nat
  | primary | members _ | binaryFrom .. | propertyKey | name | initialValue | condition | block
  | otherwise => 0
  | leftHandSide | propertyList | target | parameter => 1
  | unary | properties | declarator => 2
  | binary .. | parameters => 3
  | assignment _ => 4
  | expression _ => 5
  | elements _ | part .. | statement => 6
  | statements => 7
  | listOf item => item.rank + 1

end Phrase

/-- What is read of some tokens.  A rule goes on with fewer tokens, or with as many and a phrase of
a lower rank.  It does so by itself, and asking for it changes nothing (`parse_eq`). -/
def parse {α : Type} (φ : Phrase α) (ts : List Token) : Option (α × List Token) :=
  let behind : Parser := fun _ ψ us =>
    if us.length < ts.length ∨ us.length = ts.length ∧ ψ.rank < φ.rank then parse ψ us else none
  rule behind φ ts
termination_by (ts.length, φ.rank)
decreasing_by exact Prod.lex_def.mpr ‹_›

/-- A whole text: its statements, and nothing behind them. -/
def program (ts : List Token) : Option Node :=
  match parse .statements ts with
  | some (body, []) => some (.program body)
  | _ => none

end Grammar

/-- The tree of a text, if it has one that the rules on top of the grammar allow. -/
def Alphabet.read (A : Alphabet) (rules : Node → Bool) (text : String) : Option Node :=
  ((A.lex text.toList).bind Grammar.program).filter rules

end PhpMigration.JavaScript
