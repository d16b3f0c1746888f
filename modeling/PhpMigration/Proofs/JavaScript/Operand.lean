/-
How operands are read, level by level.

An expression that binds at some level can be read by the rule of every level up to that one: a
name is a primary expression, hence an operand of an operator before it, of an operator between
two, a side of an assignment, and an expression.  `Reads` collects what each of these rules makes
of the tokens of one expression, and the lemmas below build the whole of it from the strongest of
the facts.  Whatever is put together from operands then needs one argument, at its own level.

What stands behind the tokens has a part in it, because it must not go on with the operand; it is
enough to know the first token there.

If the expression shows the operator `in`, a rule that may not read that operator stops before it.
It need not matter what has been read until then (`StopsAtIn`).
-/
import PhpMigration.Proofs.JavaScript.Legal
import PhpMigration.Proofs.JavaScript.Parse

namespace PhpMigration.JavaScript

namespace Grammar

/-! ### The token behind an operand -/

/-- The tokens that close something or stand between its parts. -/
def closers : List Token :=
  [Token.mark ",", Token.mark ")", Token.mark "]", Token.mark "\x7d", Token.mark ";", Token.mark ":"]

/-- The token goes on with an operand instead of ending it. -/
def continuesOperand (t : Token) : Bool :=
  [Token.mark ".", Token.mark "[", Token.mark "("].contains t || (symbol? t).any updateOperators.contains

/-- The token is an operator that stands before its operand. -/
def beginsOperator (t : Token) : Bool := (symbol? t).any (unaryOperators ++ updateOperators).contains

variable {t u : Token} {rest ts : List Token} {inOk : Bool} {least level : Nat} {e : Node}

theorem skip?_cons : skip? t (t :: rest) = some rest := if_pos rfl

theorem skip?_cons_of_ne (h : u ≠ t) : skip? t (u :: rest) = none := if_neg h

theorem continuesOperand_closer (h : t ∈ closers) : continuesOperand t = false :=
  (by decide : ∀ t ∈ closers, continuesOperand t = false) t h

theorem operator?_closer (h : t ∈ closers) : operator? inOk least (t :: rest) = none := by
  have hnone : ∀ t ∈ closers, (symbol? t).bind (levels.lookup ·) = none := by decide
  have ht := hnone t h
  rw [operator?]
  cases hs : symbol? t with
  | none => rfl
  | some s =>
      rw [hs, Option.bind_some] at ht
      simp [ht]

theorem oneOf?_cons_of_any {operators : List String}
    (h : (symbol? t).any operators.contains = false) : oneOf? operators (t :: rest) = none := by
  rw [oneOf?]
  cases hs : symbol? t with
  | none => rfl
  | some s =>
      rw [hs, Option.any_some] at h
      simp only [h]
      rfl

theorem oneOf?_cons {operator : String} {operators : List String} (ht : symbol? t = some operator)
    (h : operator ∈ operators) : oneOf? operators (t :: rest) = some (operator, rest) := by
  simp [oneOf?, ht, h]

theorem oneOf?_assignment_closer (h : t ∈ closers) :
    oneOf? assignmentOperators (t :: rest) = none :=
  oneOf?_cons_of_any
    ((by decide : ∀ t ∈ closers, (symbol? t).any assignmentOperators.contains = false) t h)

theorem oneOf?_of_not_beginsOperator (h : beginsOperator t = false) (rest : List Token) :
    oneOf? unaryOperators (t :: rest) = none ∧ oneOf? updateOperators (t :: rest) = none := by
  have hboth : (symbol? t).any unaryOperators.contains = false ∧
      (symbol? t).any updateOperators.contains = false := by
    rw [beginsOperator] at h
    cases hs : symbol? t with
    | none => exact ⟨rfl, rfl⟩
    | some s => simpa [hs] using h
  exact ⟨oneOf?_cons_of_any hboth.1, oneOf?_cons_of_any hboth.2⟩

theorem oneOf?_update_of_ends (h : continuesOperand t = false) :
    oneOf? updateOperators (t :: rest) = none := by
  rw [continuesOperand, Bool.or_eq_false_iff] at h
  exact oneOf?_cons_of_any h.2

theorem members_of_ends (h : continuesOperand t = false) :
    parse (.members e) (t :: rest) = some (e, t :: rest) := by
  rw [parse_eq (.members _), rule, Grammar.members.eq_def]
  split
  all_goals first
    | rfl
    | rename_i heq
      obtain ⟨rfl, -⟩ := List.cons.inj heq
      exact absurd h (by decide)

/-! ### The levels -/

/-- Whatever has been read, the operator `in` comes next. -/
def StopsAtIn {α : Type} (reading : Option (α × List Token)) : Prop :=
  ∀ found rest, reading = some (found, rest) → ∃ more, rest = Token.word "in" :: more

/-- What the rules of all levels make of the tokens of an expression. -/
structure Reads (e : Node) (level : Nat) (openIn : Bool) (ts : List Token) : Prop where
  /-- As the object of a member or a call. -/
  leftHandSide : 18 ≤ level → ∀ rest, parse .leftHandSide (ts ++ rest) = parse (.members e) rest
  /-- As the operand of an operator before it. -/
  unary : 15 ≤ level → ∀ t rest, continuesOperand t = false →
    parse .unary (ts ++ t :: rest) = some (e, t :: rest)
  /-- As the first operand of operators between operands. -/
  binary : 4 ≤ level → ∀ inOk least t rest, least ≤ level → (openIn = true → inOk = true) →
    continuesOperand t = false → operator? inOk (level + 1) (t :: rest) = none →
    parse (.binary inOk least) (ts ++ t :: rest) = parse (.binaryFrom inOk least e) (t :: rest)
  /-- As a side of an assignment. -/
  assignment : 2 ≤ level → ∀ inOk t rest, (openIn = true → inOk = true) → t ∈ closers →
    parse (.assignment inOk) (ts ++ t :: rest) = some (e, t :: rest)
  /-- As an expression. -/
  expression : ∀ inOk t rest, (openIn = true → inOk = true) → t ∈ closers → t ≠ Token.mark "," →
    parse (.expression inOk) (ts ++ t :: rest) = some (e, t :: rest)
  binary_stops : openIn = true → 4 ≤ level → ∀ least rest, least ≤ level →
    StopsAtIn (parse (.binary false least) (ts ++ rest))
  assignment_stops : openIn = true → 2 ≤ level → ∀ rest,
    StopsAtIn (parse (.assignment false) (ts ++ rest))
  expression_stops : openIn = true → ∀ rest, StopsAtIn (parse (.expression false) (ts ++ rest))
  /-- The rule for a side of an assignment stops before the first comma of several expressions. -/
  comma_stops : level < 2 → ∀ rest, ∃ first more,
    parse (.assignment true) (ts ++ rest) = some (first, Token.mark "," :: more)

theorem StopsAtIn.none {α : Type} : StopsAtIn (none : Option (α × List Token)) := by
  intro found rest h
  simp at h

theorem StopsAtIn.some {α : Type} {found : α} {more : List Token} :
    StopsAtIn (some (found, Token.word "in" :: more)) := by
  intro found' rest h
  obtain ⟨-, rfl⟩ := Prod.mk.inj (Option.some.inj h)
  exact ⟨more, rfl⟩

/-- What is read on from where a rule has stopped stops there too, if it does so before the
operator. -/
theorem StopsAtIn.bind {α β : Type} {reading : Option (α × List Token)}
    {next : α × List Token → Option (β × List Token)} (h : StopsAtIn reading)
    (hnext : ∀ found more, StopsAtIn (next (found, Token.word "in" :: more))) :
    StopsAtIn (reading.bind next) := by
  cases reading with
  | none => exact StopsAtIn.none
  | some result =>
      obtain ⟨found, rest⟩ := result
      obtain ⟨more, rfl⟩ := h found rest rfl
      exact hnext found more

namespace Reads

/-- What is read as a whole expression only. -/
theorem of_expression {openIn : Bool} (hlevel : level < 2)
    (h : ∀ inOk t rest, (openIn = true → inOk = true) → t ∈ closers → t ≠ Token.mark "," →
      parse (.expression inOk) (ts ++ t :: rest) = some (e, t :: rest))
    (hstops : openIn = true → ∀ rest, StopsAtIn (parse (.expression false) (ts ++ rest)))
    (hcomma : ∀ rest, ∃ first more,
      parse (.assignment true) (ts ++ rest) = some (first, Token.mark "," :: more)) :
    Reads e level openIn ts where
  leftHandSide hle := by omega
  unary hle := by omega
  binary hle := by omega
  assignment hle := by omega
  expression := h
  binary_stops _ hle := by omega
  assignment_stops _ hle := by omega
  expression_stops := hstops
  comma_stops _ := hcomma

/-- What is read as an assignment, but not as an operand. -/
theorem of_assignment {openIn : Bool} (hge : 2 ≤ level) (hlevel : level < 4)
    (h : ∀ inOk t rest, (openIn = true → inOk = true) → t ∈ closers →
      parse (.assignment inOk) (ts ++ t :: rest) = some (e, t :: rest))
    (hstops : openIn = true → ∀ rest, StopsAtIn (parse (.assignment false) (ts ++ rest))) :
    Reads e level openIn ts where
  leftHandSide hle := by omega
  unary hle := by omega
  binary hle := by omega
  assignment _ := h
  expression inOk t rest hin ht hne := by
    rw [parse_eq (.expression _), rule, Grammar.expression, h inOk t rest hin ht]
    simp [skip?_cons_of_ne hne]
  binary_stops _ hle := by omega
  assignment_stops hopen _ := hstops hopen
  expression_stops hopen rest := by
    rw [parse_eq (.expression _), rule, Grammar.expression]
    refine (hstops hopen rest).bind ?_
    intro e more
    exact StopsAtIn.some
  comma_stops hlt := by omega

/-- What is read as an operand between operators. -/
theorem of_binary {openIn : Bool} (hge : 4 ≤ level) (hlevel : level < 15)
    (h : ∀ inOk least t rest, least ≤ level → (openIn = true → inOk = true) →
      continuesOperand t = false → operator? inOk (level + 1) (t :: rest) = none →
      parse (.binary inOk least) (ts ++ t :: rest) = parse (.binaryFrom inOk least e) (t :: rest))
    (hstops : openIn = true → ∀ least rest, least ≤ level →
      StopsAtIn (parse (.binary false least) (ts ++ rest))) :
    Reads e level openIn ts := by
  have hassignment : ∀ inOk t rest, (openIn = true → inOk = true) → t ∈ closers →
      parse (.assignment inOk) (ts ++ t :: rest) = some (e, t :: rest) := by
    intro inOk t rest hin ht
    rw [parse_eq (.assignment _), rule, Grammar.assignment,
      h inOk 4 t rest hge hin (continuesOperand_closer ht) (operator?_closer ht),
      parse_eq (.binaryFrom _ _ _), rule, Grammar.binaryFrom, operator?_closer ht]
    have hquestion : t ≠ Token.mark "?" := by
      rintro rfl
      exact absurd ht (by decide)
    simp [skip?_cons_of_ne hquestion, oneOf?_assignment_closer ht]
  have hstop : openIn = true → ∀ rest, StopsAtIn (parse (.assignment false) (ts ++ rest)) := by
    intro hopen rest
    rw [parse_eq (.assignment _), rule, Grammar.assignment]
    refine (hstops hopen 4 rest hge).bind ?_
    intro e more
    exact StopsAtIn.some
  have hlow : Reads e 3 openIn ts := of_assignment (by decide) (by decide) hassignment hstop
  exact {
    leftHandSide := by omega
    unary := by omega
    binary := fun _ => h
    assignment := fun _ => hassignment
    expression := hlow.expression
    binary_stops := fun hopen _ => hstops hopen
    assignment_stops := fun hopen _ => hstop hopen
    expression_stops := hlow.expression_stops
    comma_stops := by omega }

/-- What is read as the operand of an operator before it.  It shows no operator `in`. -/
theorem of_unary (hge : 15 ≤ level) (hlevel : level < 18)
    (h : ∀ t rest, continuesOperand t = false →
      parse .unary (ts ++ t :: rest) = some (e, t :: rest)) : Reads e level false ts := by
  have hbinary : ∀ inOk least t rest, least ≤ 14 → (false = true → inOk = true) →
      continuesOperand t = false → operator? inOk (14 + 1) (t :: rest) = none →
      parse (.binary inOk least) (ts ++ t :: rest) =
        parse (.binaryFrom inOk least e) (t :: rest) := by
    intro inOk least t rest _ _ ht _
    rw [parse_eq (.binary _ _), rule, Grammar.binary, h t rest ht]
    rfl
  have hlow : Reads e 14 false ts := of_binary (by decide) (by decide) hbinary (by simp)
  exact {
    leftHandSide := by omega
    unary := fun _ => h
    binary := by
      intro _ inOk least t rest _ _ ht _
      rw [parse_eq (.binary _ _), rule, Grammar.binary, h t rest ht]
      rfl
    assignment := fun _ => hlow.assignment (by decide)
    expression := hlow.expression
    binary_stops := by simp
    assignment_stops := by simp
    expression_stops := by simp
    comma_stops := by omega }

/-- What is read as the object of a member or a call. -/
theorem of_leftHandSide {us : List Token} (hlevel : 15 ≤ level) (hu : beginsOperator u = false)
    (h : ∀ rest, parse .leftHandSide (u :: us ++ rest) = parse (.members e) rest) :
    Reads e level false (u :: us) := by
  have hunary : ∀ t rest, continuesOperand t = false →
      parse .unary (u :: us ++ t :: rest) = some (e, t :: rest) := by
    intro t rest ht
    obtain ⟨hnone, hupdate⟩ := oneOf?_of_not_beginsOperator hu (us ++ t :: rest)
    rw [parse_eq .unary, rule, Grammar.unary, List.cons_append, hnone, hupdate,
      ← List.cons_append, h, members_of_ends ht]
    simp [oneOf?_update_of_ends ht]
  have hlow : Reads e 15 false (u :: us) := of_unary (by decide) (by decide) hunary
  exact {
    leftHandSide := fun _ => h
    unary := fun _ => hunary
    binary := by
      intro _ inOk least t rest _ _ ht _
      rw [parse_eq (.binary _ _), rule, Grammar.binary, hunary t rest ht]
      rfl
    assignment := fun _ => hlow.assignment (by decide)
    expression := hlow.expression
    binary_stops := by simp
    assignment_stops := by simp
    expression_stops := by simp
    comma_stops := by omega }

/-- What is read as a primary expression. -/
theorem of_primary {us : List Token} (hlevel : 15 ≤ level) (hu : beginsOperator u = false)
    (h : ∀ rest, parse .primary (u :: us ++ rest) = some (e, rest)) :
    Reads e level false (u :: us) := by
  refine of_leftHandSide hlevel hu ?_
  intro rest
  rw [parse_eq .leftHandSide, rule, Grammar.leftHandSide, h]
  rfl

/-- In parentheses an expression is read as a primary one, whatever it shows. -/
theorem parenthesized {openIn : Bool} {level' : Nat} (hlevel : 15 ≤ level')
    (h : Reads e level openIn ts) : Reads e level' false (Token.mark "(" :: (ts ++ [Token.mark ")"])) := by
  refine of_primary hlevel (by decide) ?_
  intro rest
  have hread : (ts ++ [Token.mark ")"]) ++ rest = ts ++ Token.mark ")" :: rest := by simp
  rw [List.cons_append, hread, parse_eq .primary, rule, Grammar.primary,
    h.expression true _ rest (fun _ => rfl) (by decide) (by decide)]
  simp [skip?_cons]

/-! ### Operators before and behind an operand -/

theorem unary_operator {operator : String} {openIn : Bool} (h : Reads e level openIn ts)
    (hlevel : 15 ≤ level) (ht : symbol? t = some operator) (hop : operator ∈ unaryOperators) :
    Reads (.unary (.text operator) e) 15 false (t :: ts) := by
  refine of_unary (by decide) (by decide) ?_
  intro u rest hu
  rw [List.cons_append, parse_eq .unary, rule, Grammar.unary, oneOf?_cons ht hop]
  simp [h.unary hlevel u rest hu]

theorem update_before {operator : String} {openIn : Bool} (h : Reads e level openIn ts)
    (hlevel : 15 ≤ level) (hplace : isPlace e = true) (hop : operator ∈ updateOperators) :
    Reads (.update (.text operator) e true) 15 false (Token.mark operator :: ts) := by
  refine of_unary (by decide) (by decide) ?_
  intro u rest hu
  have hnone : oneOf? unaryOperators (Token.mark operator :: (ts ++ u :: rest)) = none :=
    oneOf?_cons_of_any
      ((by decide : ∀ s ∈ updateOperators, unaryOperators.contains s = false) operator hop)
  rw [List.cons_append, parse_eq .unary, rule, Grammar.unary, hnone, oneOf?_cons rfl hop]
  simp [h.unary hlevel u rest hu, hplace]

theorem update_behind {operator : String} {openIn : Bool} (h : Reads e level openIn (u :: ts))
    (hu : beginsOperator u = false) (hlevel : 18 ≤ level) (hplace : isPlace e = true)
    (hop : operator ∈ updateOperators) :
    Reads (.update (.text operator) e false) 16 false (u :: ts ++ [Token.mark operator]) := by
  refine of_unary (by decide) (by decide) ?_
  intro t rest ht
  obtain ⟨hunary, hupdate⟩ := oneOf?_of_not_beginsOperator hu (ts ++ Token.mark operator :: t :: rest)
  have hmembers : parse (.members e) (Token.mark operator :: t :: rest) =
      some (e, Token.mark operator :: t :: rest) := by
    rcases (by simpa [updateOperators] using hop : operator = "++" ∨ operator = "--") with rfl | rfl
    all_goals rw [parse_eq (.members _), rule, Grammar.members.eq_def]
    all_goals rfl
  have hread : u :: ts ++ [Token.mark operator] ++ t :: rest = u :: ts ++ Token.mark operator :: t :: rest := by
    simp
  rw [hread, parse_eq .unary, rule, Grammar.unary, List.cons_append, hunary, hupdate,
    ← List.cons_append, h.leftHandSide hlevel, hmembers]
  simp [oneOf?_cons (t := Token.mark operator) rfl hop, hplace]

end Reads

/-! ### Operators between two operands -/

/-- The token is an operator between two operands, which binds at a level. -/
structure IsOperator (operator : String) (level : Nat) (t : Token) : Prop where
  symbol : symbol? t = some operator
  lookup : levels.lookup operator = some level
  four_le : 4 ≤ level
  lt_fifteen : level < 15
  ends : continuesOperand t = false
  word : operator = "in" → t = Token.word "in"

theorem IsOperator.operator?_eq {operator : String} (h : IsOperator operator level t)
    (rest : List Token) : operator? inOk least (t :: rest) =
      if least ≤ level ∧ (inOk = true ∨ operator ≠ "in") then some ((operator, level), rest)
      else none := by
  rw [operator?, h.symbol]
  simp only [h.lookup]

theorem isOperator_in : IsOperator "in" 10 (Token.word "in") where
  symbol := rfl
  lookup := by decide
  four_le := by decide
  lt_fifteen := by decide
  ends := by decide
  word _ := rfl

theorem operator?_mono {least' : Nat} (h : operator? inOk least ts = none) (hle : least ≤ least') :
    operator? inOk least' ts = none := by
  unfold operator? at h ⊢
  split at h
  · rfl
  · split at h
    · split at h
      · rw [ite_eq_right_iff] at h
        rw [if_neg]
        rintro ⟨hlevel, hin⟩
        exact absurd (h ⟨by omega, hin⟩) (by simp)
      · simp_all
    · simp_all

theorem binaryFrom_none {left : Node} (h : operator? inOk least ts = none) :
    parse (.binaryFrom inOk least left) ts = some (left, ts) := by
  rw [parse_eq (.binaryFrom _ _ _), rule, Grammar.binaryFrom, h]
  rfl

/-- Two operands with an operator between them, the second of which binds more tightly. -/
theorem Reads.joined {operator : String} {left right : Node} {p q : Nat} {x y : Bool}
    {us : List Token} (ht : IsOperator operator level t) (hl : Reads left p x ts)
    (hr : Reads right q y us) (hp : level ≤ p) (hq : level + 1 ≤ q) :
    Reads (Grammar.joined operator left right) level (operator == "in" || x || y) (ts ++ t :: us) := by
  have hfour := ht.four_le
  have hfifteen := ht.lt_fifteen
  refine Reads.of_binary hfour hfifteen ?_ ?_
  · intro inOk least v rest hle hin hv hnone
    have hx : x = true → inOk = true := fun h => hin (by simp [h])
    have hy : y = true → inOk = true := fun h => hin (by simp [h])
    have hword : inOk = true ∨ operator ≠ "in" := by
      rcases Decidable.em (operator = "in") with heq | hne
      · exact Or.inl (hin (by simp [heq]))
      · exact Or.inr hne
    have hfirst : operator? inOk (p + 1) (t :: (us ++ v :: rest)) = none := by
      rw [ht.operator?_eq, if_neg (by omega)]
    have hsecond : operator? inOk (q + 1) (v :: rest) = none := operator?_mono hnone (by omega)
    have hread : ts ++ t :: us ++ v :: rest = ts ++ t :: (us ++ v :: rest) := by simp
    rw [hread, hl.binary (by omega) inOk least _ _ (by omega) hx ht.ends hfirst,
      parse_eq (.binaryFrom _ _ _), rule, Grammar.binaryFrom, ht.operator?_eq, if_pos ⟨hle, hword⟩]
    simp only
    rw [hr.binary (by omega) inOk (level + 1) v rest hq hy hv hsecond, binaryFrom_none hnone]
    rfl
  · intro hopen least rest hle
    have hread : ts ++ t :: us ++ rest = ts ++ t :: (us ++ rest) := by simp
    rw [hread]
    cases hx : x with
    | true => exact hl.binary_stops hx (by omega) least _ (by omega)
    | false =>
        have hfirst : operator? false (p + 1) (t :: (us ++ rest)) = none := by
          rw [ht.operator?_eq, if_neg (by omega)]
        rw [hl.binary (by omega) false least _ _ (by omega) (by simp [hx]) ht.ends hfirst]
        rcases Decidable.em (operator = "in") with heq | hne
        · -- The operator itself must not be read.
          rw [binaryFrom_none (by rw [ht.operator?_eq, if_neg (by simp [heq])]), ht.word heq]
          exact StopsAtIn.some
        · rw [parse_eq (.binaryFrom _ _ _), rule, Grammar.binaryFrom, ht.operator?_eq,
            if_pos ⟨hle, Or.inr hne⟩]
          have hy : y = true := by simpa [hx, hne] using hopen
          refine (hr.binary_stops hy (by omega) (level + 1) rest hq).bind ?_
          intro found more
          show StopsAtIn (parse (.binaryFrom false least _) (Token.word "in" :: more))
          rw [binaryFrom_none (by rw [isOperator_in.operator?_eq, if_neg (by simp)])]
          exact StopsAtIn.some

/-! ### Assignments and choices -/

theorem Reads.assigned {operator : String} {left right : Node} {p q : Nat} {y : Bool}
    {us : List Token} (hl : Reads left p false ts) (hr : Reads right q y us) (hp : 4 ≤ p)
    (hq : 2 ≤ q) (hplace : isPlace left = true) (hop : operator ∈ assignmentOperators) :
    Reads (.assignment (.text operator) left right) 2 y (ts ++ Token.mark operator :: us) := by
  have hall : ∀ s ∈ assignmentOperators, continuesOperand (Token.mark s) = false ∧
      levels.lookup s = none ∧ s ≠ "?" := by decide
  obtain ⟨hends, hlookup, hquestion⟩ := hall operator hop
  have hnone : ∀ inOk least rest, operator? inOk least (Token.mark operator :: rest) = none := by
    intro inOk least rest
    simp [operator?, symbol?, hlookup]
  have hleft : ∀ inOk rest, parse (.assignment inOk) (ts ++ Token.mark operator :: rest) =
      (parse (.assignment inOk) rest).bind fun found =>
        some (.assignment (.text operator) left found.1, found.2) := by
    intro inOk rest
    rw [parse_eq (.assignment _), rule, Grammar.assignment,
      hl.binary hp inOk 4 _ _ hp (by simp) hends (hnone _ _ _), binaryFrom_none (hnone _ _ _)]
    simp [skip?_cons_of_ne (t := Token.mark "?") (u := Token.mark operator) (by simpa using hquestion),
      oneOf?_cons (t := Token.mark operator) rfl hop, hplace]
  refine Reads.of_assignment (by decide) (by decide) ?_ ?_
  · intro inOk t rest hin ht
    rw [List.append_assoc, List.cons_append, hleft, hr.assignment hq inOk t rest hin ht]
    rfl
  · intro hopen rest
    rw [List.append_assoc, List.cons_append, hleft]
    refine (hr.assignment_stops hopen hq rest).bind ?_
    intro found more
    exact StopsAtIn.some

theorem Reads.choice {test consequent alternate : Node} {p q r : Nat} {x y z : Bool}
    {us vs : List Token} (ht : Reads test p x ts) (hc : Reads consequent q y us)
    (ha : Reads alternate r z vs) (hp : 4 ≤ p) (hq : 2 ≤ q) (hr : 2 ≤ r) :
    Reads (.conditional test consequent alternate) 3 (x || z)
      (ts ++ Token.mark "?" :: (us ++ Token.mark ":" :: vs)) := by
  have hnone : ∀ inOk least rest, operator? inOk least (Token.mark "?" :: rest) = none := by
    intro inOk least rest
    rfl
  have htest : ∀ inOk rest, (x = true → inOk = true) →
      parse (.assignment inOk) (ts ++ Token.mark "?" :: (us ++ Token.mark ":" :: rest)) =
        (parse (.assignment inOk) rest).bind fun found =>
          some (.conditional test consequent found.1, found.2) := by
    intro inOk rest hx
    rw [parse_eq (.assignment _), rule, Grammar.assignment,
      ht.binary hp inOk 4 _ _ hp hx rfl (hnone _ _ _), binaryFrom_none (hnone _ _ _)]
    simp [skip?_cons, hc.assignment hq true (Token.mark ":") rest (fun _ => rfl) (by decide)]
  refine Reads.of_assignment (by decide) (by decide) ?_ ?_
  · intro inOk t rest hin hclose
    have hread : ts ++ Token.mark "?" :: (us ++ Token.mark ":" :: vs) ++ t :: rest =
        ts ++ Token.mark "?" :: (us ++ Token.mark ":" :: (vs ++ t :: rest)) := by simp
    rw [hread, htest inOk _ (fun h => hin (by simp [h])),
      ha.assignment hr inOk t rest (fun h => hin (by simp [h])) hclose]
    rfl
  · intro hopen rest
    have hread : ts ++ Token.mark "?" :: (us ++ Token.mark ":" :: vs) ++ rest =
        ts ++ Token.mark "?" :: (us ++ Token.mark ":" :: (vs ++ rest)) := by simp
    rw [hread]
    cases hx : x with
    | true =>
        rw [parse_eq (.assignment _), rule, Grammar.assignment]
        refine (ht.binary_stops hx hp 4 _ hp).bind ?_
        intro found more
        exact StopsAtIn.some
    | false =>
        rw [htest false _ (by simp [hx])]
        refine (ha.assignment_stops (by simpa [hx] using hopen) hr rest).bind ?_
        intro found more
        exact StopsAtIn.some

/-! ### Lists -/

/-- What the rule for expressions with commas between them makes of some tokens. -/
structure ReadsList (es : List Node) (openIn : Bool) (ts : List Token) : Prop where
  commaList : ∀ inOk t rest, (openIn = true → inOk = true) → t ∈ closers → t ≠ Token.mark "," →
    parse (.listOf (.assignment inOk)) (ts ++ t :: rest) = some (es, t :: rest)
  stops : openIn = true → ∀ rest, StopsAtIn (parse (.listOf (.assignment false)) (ts ++ rest))

theorem ReadsList.single {x : Bool} (h : Reads e level x ts) (hlevel : 2 ≤ level) :
    ReadsList [e] x ts where
  commaList inOk t rest hin ht hne := by
    rw [parse_eq (.listOf _), rule, listOf, h.assignment hlevel inOk t rest hin ht]
    simp [skip?_cons_of_ne hne]
  stops hopen rest := by
    rw [parse_eq (.listOf _), rule, listOf]
    refine (h.assignment_stops hopen hlevel rest).bind ?_
    intro found more
    exact StopsAtIn.some

theorem ReadsList.cons {x y : Bool} {es : List Node} {us : List Token} (h : Reads e level x ts)
    (hlevel : 2 ≤ level) (hes : ReadsList es y us) :
    ReadsList (e :: es) (x || y) (ts ++ Token.mark "," :: us) where
  commaList inOk t rest hin ht hne := by
    have hread : ts ++ Token.mark "," :: us ++ t :: rest = ts ++ Token.mark "," :: (us ++ t :: rest) := by
      simp
    rw [hread, parse_eq (.listOf _), rule, listOf,
      h.assignment hlevel inOk _ _ (fun h => hin (by simp [h])) (by decide)]
    simp [skip?_cons, hes.commaList inOk t rest (fun h => hin (by simp [h])) ht hne]
  stops hopen rest := by
    have hread : ts ++ Token.mark "," :: us ++ rest = ts ++ Token.mark "," :: (us ++ rest) := by simp
    rw [hread, parse_eq (.listOf _), rule, listOf]
    cases hx : x with
    | true =>
        refine (h.assignment_stops hx hlevel _).bind ?_
        intro found more
        exact StopsAtIn.some
    | false =>
        rw [h.assignment hlevel false _ _ (by simp [hx]) (by decide)]
        simp only [Option.bind_eq_bind, Option.bind_some, skip?_cons]
        refine (hes.stops (by simpa [hx] using hopen) rest).bind ?_
        intro found more
        exact StopsAtIn.some

/-- Two expressions or more with commas between them are an expression. -/
theorem Reads.sequence {x y : Bool} {es : List Node} {us : List Token} (h : Reads e level x ts)
    (hlevel : 2 ≤ level) (hes : ReadsList es y us) :
    Reads (.sequence (e :: es)) 1 (x || y) (ts ++ Token.mark "," :: us) := by
  refine Reads.of_expression (by decide) ?_ ?_ ?_
  · intro inOk t rest hin ht hne
    have hread : ts ++ Token.mark "," :: us ++ t :: rest = ts ++ Token.mark "," :: (us ++ t :: rest) := by
      simp
    rw [hread, parse_eq (.expression _), rule, Grammar.expression,
      h.assignment hlevel inOk _ _ (fun h => hin (by simp [h])) (by decide)]
    simp [skip?_cons, hes.commaList inOk t rest (fun h => hin (by simp [h])) ht hne]
  · intro hopen rest
    have hread : ts ++ Token.mark "," :: us ++ rest = ts ++ Token.mark "," :: (us ++ rest) := by simp
    rw [hread, parse_eq (.expression _), rule, Grammar.expression]
    cases hx : x with
    | true =>
        refine (h.assignment_stops hx hlevel _).bind ?_
        intro found more
        exact StopsAtIn.some
    | false =>
        rw [h.assignment hlevel false _ _ (by simp [hx]) (by decide)]
        simp only [Option.bind_eq_bind, Option.bind_some, skip?_cons]
        refine (hes.stops (by simpa [hx] using hopen) rest).bind ?_
        intro found more
        exact StopsAtIn.some
  · intro rest
    have hread : ts ++ Token.mark "," :: us ++ rest = ts ++ Token.mark "," :: (us ++ rest) := by simp
    rw [hread]
    exact ⟨e, us ++ rest, h.assignment hlevel true _ _ (fun _ => rfl) (by decide)⟩

/-- The tokens up to the one that closes a list are read as the list. -/
def ReadsElements (es : List Node) (close : Token) (ts : List Token) : Prop :=
  ∀ rest, parse (.elements close) (ts ++ close :: rest) = some (es, rest)

theorem ReadsElements.nil (close : Token) : ReadsElements [] close [] := by
  intro rest
  rw [List.nil_append, parse_eq (.elements _), rule, Grammar.elements, skip?_cons]
  rfl

theorem ReadsElements.of_list {es : List Node} {x : Bool} {close : Token} {us : List Token}
    (h : ReadsList es x (u :: us)) (hclose : close ∈ closers) (hcomma : close ≠ Token.mark ",")
    (hu : u ≠ close) : ReadsElements es close (u :: us) := by
  intro rest
  have hlist := h.commaList true close rest (fun _ => rfl) hclose hcomma
  rw [List.cons_append] at hlist
  rw [List.cons_append, parse_eq (.elements _), rule, Grammar.elements, skip?_cons_of_ne hu]
  simp [hlist, skip?_cons]

/-! ### Members and calls -/

theorem Reads.member {x : Bool} {name : String} (h : Reads e level x (u :: ts))
    (hu : beginsOperator u = false) (hlevel : 18 ≤ level) :
    Reads (.member e (.identifier (.text name)) false) 18 false
      (u :: (ts ++ [Token.mark ".", Token.word name])) := by
  refine Reads.of_leftHandSide (by decide) hu ?_
  intro rest
  have hread : u :: (ts ++ [Token.mark ".", Token.word name]) ++ rest =
      u :: ts ++ Token.mark "." :: Token.word name :: rest := by simp
  rw [hread, h.leftHandSide hlevel, parse_eq (.members _), rule, Grammar.members.eq_def]
  rfl

theorem Reads.element {property : Node} {x y : Bool} {q : Nat} {us : List Token}
    (h : Reads e level x (u :: ts)) (hu : beginsOperator u = false) (hlevel : 18 ≤ level)
    (hp : Reads property q y us) :
    Reads (.member e property true) 18 false (u :: (ts ++ Token.mark "[" :: (us ++ [Token.mark "]"]))) := by
  refine Reads.of_leftHandSide (by decide) hu ?_
  intro rest
  have hread : u :: (ts ++ Token.mark "[" :: (us ++ [Token.mark "]"])) ++ rest =
      u :: ts ++ Token.mark "[" :: (us ++ Token.mark "]" :: rest) := by simp
  rw [hread, h.leftHandSide hlevel, parse_eq (.members _), rule, Grammar.members.eq_def]
  simp [hp.expression true (Token.mark "]") rest (fun _ => rfl) (by decide) (by decide), skip?_cons]

theorem Reads.call {arguments : List Node} {x : Bool} {us : List Token}
    (h : Reads e level x (u :: ts)) (hu : beginsOperator u = false) (hlevel : 18 ≤ level)
    (ha : ReadsElements arguments (Token.mark ")") us) :
    Reads (.call e arguments) 18 false (u :: (ts ++ Token.mark "(" :: (us ++ [Token.mark ")"]))) := by
  refine Reads.of_leftHandSide (by decide) hu ?_
  intro rest
  have hread : u :: (ts ++ Token.mark "(" :: (us ++ [Token.mark ")"])) ++ rest =
      u :: ts ++ Token.mark "(" :: (us ++ Token.mark ")" :: rest) := by simp
  rw [hread, h.leftHandSide hlevel, parse_eq (.members _), rule, Grammar.members.eq_def]
  simp [ha rest]

/-! ### Arrays and objects -/

theorem Reads.array {es : List Node} (hlevel : 15 ≤ level) (h : ReadsElements es (Token.mark "]") ts) :
    Reads (.arrayExpression es) level false (Token.mark "[" :: (ts ++ [Token.mark "]"])) := by
  refine Reads.of_primary hlevel (by decide) ?_
  intro rest
  have hread : ts ++ [Token.mark "]"] ++ rest = ts ++ Token.mark "]" :: rest := by simp
  rw [List.cons_append, hread, parse_eq .primary, rule, Grammar.primary]
  simp [h rest]

/-- The tokens are read as a key. -/
def ReadsKey (key : Node) (computed : Bool) (ts : List Token) : Prop :=
  ∀ rest, parse .propertyKey (ts ++ Token.mark ":" :: rest) = some ((key, computed), Token.mark ":" :: rest)

theorem ReadsKey.computed {key : Node} {x : Bool} (h : Reads key level x ts) (hlevel : 2 ≤ level) :
    ReadsKey key true (Token.mark "[" :: (ts ++ [Token.mark "]"])) := by
  intro rest
  have hread : ts ++ [Token.mark "]"] ++ Token.mark ":" :: rest = ts ++ Token.mark "]" :: Token.mark ":" :: rest := by
    simp
  rw [List.cons_append, hread, parse_eq .propertyKey, rule, Grammar.propertyKey]
  simp [h.assignment hlevel true (Token.mark "]") (Token.mark ":" :: rest) (fun _ => rfl) (by decide),
    skip?_cons]

/-- The tokens are read as some properties. -/
def ReadsProperties (ps : List Node) (ts : List Token) : Prop :=
  ∀ rest, parse .propertyList (ts ++ Token.mark "\x7d" :: rest) = some (ps, Token.mark "\x7d" :: rest)

theorem propertyList_of_key {key value : Node} {computed y : Bool} {q : Nat} {us : List Token}
    (hk : ReadsKey key computed ts) (hv : Reads value q y us) (hq : 2 ≤ q) (ht : t ∈ closers) :
    parse .propertyList (ts ++ Token.mark ":" :: (us ++ t :: rest)) =
      match skip? (Token.mark ",") (t :: rest) with
      | some more => (parse .propertyList more).bind fun found =>
        some (.objectProperty key value computed :: found.1, found.2)
      | none => some ([.objectProperty key value computed], t :: rest) := by
  rw [parse_eq .propertyList, rule, Grammar.propertyList, hk]
  simp only [Option.bind_eq_bind, Option.bind_some, skip?_cons,
    hv.assignment hq true t rest (fun _ => rfl) ht]
  rfl

theorem ReadsProperties.single {key value : Node} {computed y : Bool} {q : Nat} {us : List Token}
    (hk : ReadsKey key computed ts) (hv : Reads value q y us) (hq : 2 ≤ q) :
    ReadsProperties [.objectProperty key value computed] (ts ++ Token.mark ":" :: us) := by
  intro rest
  rw [List.append_assoc, List.cons_append, propertyList_of_key hk hv hq (by decide)]
  rfl

theorem ReadsProperties.cons {key value : Node} {computed y : Bool} {q : Nat}
    {us vs : List Token} {ps : List Node} (hk : ReadsKey key computed ts)
    (hv : Reads value q y us) (hq : 2 ≤ q) (hps : ReadsProperties ps vs) :
    ReadsProperties (.objectProperty key value computed :: ps)
      (ts ++ Token.mark ":" :: (us ++ Token.mark "," :: vs)) := by
  intro rest
  have hread : ts ++ Token.mark ":" :: (us ++ Token.mark "," :: vs) ++ Token.mark "\x7d" :: rest =
      ts ++ Token.mark ":" :: (us ++ Token.mark "," :: (vs ++ Token.mark "\x7d" :: rest)) := by simp
  rw [hread, propertyList_of_key hk hv hq (by decide)]
  simp [skip?_cons, hps rest]

theorem Reads.object {ps : List Node} (hlevel : 15 ≤ level) (hts : ts.head? ≠ some (Token.mark "\x7d"))
    (hnil : ts = [] → ps = []) (h : ts ≠ [] → ReadsProperties ps ts) :
    Reads (.objectExpression ps) level false (Token.mark "\x7b" :: (ts ++ [Token.mark "\x7d"])) := by
  refine Reads.of_primary hlevel (by decide) ?_
  intro rest
  have hread : ts ++ [Token.mark "\x7d"] ++ rest = ts ++ Token.mark "\x7d" :: rest := by simp
  rw [List.cons_append, hread, parse_eq .primary, rule, Grammar.primary, parse_eq .properties, rule,
    Grammar.properties]
  cases ts with
  | nil =>
      rw [hnil rfl]
      simp [skip?_cons]
  | cons u us =>
      have hps := h (by simp) rest
      rw [List.cons_append] at hps
      rw [List.cons_append, skip?_cons_of_ne (by simpa using hts)]
      simp [hps, skip?_cons]

end Grammar

end PhpMigration.JavaScript
