/-
Parsing by tables with one token of lookahead.

The tables are computed from the rules: the states are sets of positions in rules, reached from
each other by reading a symbol, and a finished rule is reduced when the next token can follow it
in its state.  What can follow is the least solution of two kinds of inclusions: what is read
after a symbol, through symbols that derive nothing, and what follows a symbol that ends another
one's rule.  A conflict is decided by precedence where both sides have one and by shifting
otherwise; of two reductions the earlier rule wins.

A state that can do nothing but reduce one rule does so without looking at the next token, so the
reader of tokens is asked only when its answer matters.
-/
import Std.Data.HashMap

namespace PhpMigration.Lalr

open Std (HashMap)

/-- How operators of one level group. -/
inductive Associativity where
  | left
  | right
  | none
  deriving DecidableEq, Repr, Inhabited

/-- What a rule says: a symbol and what it consists of. -/
structure Production where
  lhs : String
  rhs : List String
  deriving DecidableEq, Repr, Inhabited

/-- A grammar; the levels of precedence go from loose to tight. -/
structure Grammar where
  start : String
  productions : Array Production
  levels : List (Associativity × List String)

/-- What to do in a state when a token comes. -/
inductive Action where
  | shift (state : Nat)
  | reduce (production : Nat)
  | accept
  | refuse
  deriving DecidableEq, Repr, Inhabited

/-- The tables of a grammar.  Symbols are numbers; zero is the end of the input. -/
structure Tables where
  /-- The numbers of the symbols. -/
  symbols : HashMap String Nat
  /-- For each state, what to do when a terminal comes. -/
  actions : Array (HashMap Nat Action)
  /-- For each state, the one rule to be reduced without looking at the next token. -/
  defaults : Array (Option Nat)
  /-- For each state, the state behind a symbol. -/
  gotos : Array (HashMap Nat Nat)
  /-- For each rule, the symbol it derives and the number of symbols it consists of. -/
  shapes : Array (Nat × Nat)
  deriving Inhabited

/-! ### Symbols and positions -/

/-- A grammar in numbers: rule zero derives the start symbol, the terminals come first. -/
structure Numbered where
  symbols : HashMap String Nat
  terminals : Nat
  count : Nat
  lhs : Array Nat
  rhs : Array (Array Nat)
  /-- The rules of each symbol. -/
  rulesOf : Array (Array Nat)
  deriving Inhabited

/-- The number of the symbol that derives the start symbol. -/
def topSymbol : String := "(top)"

/-- The grammar in numbers. -/
def number (g : Grammar) : Numbered := Id.run do
  let mut isNonterminal : HashMap String Bool := {}
  for p in g.productions do
    isNonterminal := isNonterminal.insert p.lhs true
  let mut symbols : HashMap String Nat := {}
  symbols := symbols.insert "(end)" 0
  let mut next := 1
  for p in g.productions do
    for s in p.rhs do
      if !isNonterminal.contains s && !symbols.contains s then
        symbols := symbols.insert s next
        next := next + 1
  let terminals := next
  symbols := symbols.insert topSymbol next
  next := next + 1
  for p in g.productions do
    if !symbols.contains p.lhs then
      symbols := symbols.insert p.lhs next
      next := next + 1
  let code := fun s => symbols.getD s 0
  let lhs := #[code topSymbol] ++ g.productions.map fun p => code p.lhs
  let rhs := #[#[code g.start]] ++ g.productions.map fun p => (p.rhs.map code).toArray
  let mut rulesOf : Array (Array Nat) := Array.replicate next #[]
  for h : i in [0 : lhs.size] do
    rulesOf := rulesOf.modify lhs[i] (·.push i)
  return { symbols, terminals, count := next, lhs, rhs, rulesOf }

/-- A position in a rule, as one number. -/
def position (rule dot : Nat) : Nat := rule * 64 + dot

/-- The rule of a position. -/
def ruleOf (p : Nat) : Nat := p / 64

/-- How much of its rule a position has read. -/
def dotOf (p : Nat) : Nat := p % 64

/-- The symbol behind a position, if its rule is not finished. -/
def Numbered.after? (n : Numbered) (p : Nat) : Option Nat :=
  (n.rhs[ruleOf p]?).bind (·[dotOf p]?)

/-- A symbol that other symbols derive. -/
def Numbered.isNonterminal (n : Numbered) (s : Nat) : Bool := n.terminals ≤ s

/-- The positions and the beginnings of all rules that may come next, in order of discovery. -/
def Numbered.closure (n : Numbered) (kernel : Array Nat) : Array Nat := Id.run do
  let mut items := kernel
  let mut seen : Array Bool := Array.replicate n.lhs.size false
  for i in [0 : kernel.size + n.lhs.size] do
    match items[i]? with
    | none => return items
    | some p =>
      match n.after? p with
      | some s =>
        if n.isNonterminal s then
          for r in n.rulesOf.getD s #[] do
            if !seen.getD r true then
              seen := seen.set! r true
              items := items.push (position r 0)
      | none => pure ()
  return items

/-! ### States -/

/-- The states: their positions and the states behind each symbol. -/
structure Automaton where
  items : Array (Array Nat)
  gotos : Array (HashMap Nat Nat)
  deriving Inhabited

/-- The positions behind each symbol, in order. -/
def Numbered.successors (n : Numbered) (items : Array Nat) : Array (Nat × Array Nat) := Id.run do
  let mut order : Array Nat := #[]
  let mut kernels : HashMap Nat (Array Nat) := {}
  for p in items do
    match n.after? p with
    | none => pure ()
    | some s =>
      if !kernels.contains s then
        order := order.push s
      kernels := kernels.insert s ((kernels.getD s #[]).push (p + 1))
  return order.map fun s => (s, kernels.getD s #[])

/-- More states than any grammar here has. -/
def stateLimit : Nat := 10000

/-- All states, found one after another from the start. -/
def Numbered.automaton (n : Numbered) : Automaton := Id.run do
  let first := #[position 0 0]
  let mut items := #[n.closure first]
  let mut gotos : Array (HashMap Nat Nat) := #[]
  let mut known : HashMap (Array Nat) Nat := {}
  known := known.insert first 0
  for i in [0 : stateLimit] do
    match items[i]? with
    | none => return { items, gotos }
    | some here =>
      let mut behind : HashMap Nat Nat := {}
      for (s, kernel) in n.successors here do
        match known[kernel]? with
        | some state => behind := behind.insert s state
        | none =>
          let state := items.size
          known := known.insert kernel state
          items := items.push (n.closure kernel)
          behind := behind.insert s state
      gotos := gotos.push behind
  return { items, gotos }

/-! ### What can follow -/

/-- The symbols that derive nothing. -/
def Numbered.nullable (n : Numbered) : Array Bool := Id.run do
  let mut result : Array Bool := Array.replicate n.count false
  for _ in [0 : n.count] do
    let mut changed := false
    for h : r in [0 : n.lhs.size] do
      let s := n.lhs[r]
      if !result.getD s true && (n.rhs.getD r #[]).all fun t => result.getD t false then
        result := result.set! s true
        changed := true
    if !changed then
      return result
  return result

/-- A set of terminals as a number whose bits are the members. -/
abbrev TerminalSet := Nat

/-- Unions along edges `(into, from)`, repeated until nothing changes. -/
def propagate (edges : Array (Nat × Nat)) (start : Array TerminalSet) : Array TerminalSet :=
    Id.run do
  let mut sets := start
  for _ in [0 : start.size + 1] do
    let mut changed := false
    for (into, source) in edges do
      let old := sets.getD into 0
      let new := old ||| sets.getD source 0
      if new != old then
        sets := sets.set! into new
        changed := true
    if !changed then
      return sets
  return sets

/-- The steps from a state over a symbol that other symbols derive. -/
structure Transitions where
  list : Array (Nat × Nat)
  index : HashMap (Nat × Nat) Nat

/-- All such steps. -/
def Numbered.transitions (n : Numbered) (a : Automaton) : Transitions := Id.run do
  let mut list : Array (Nat × Nat) := #[]
  let mut index : HashMap (Nat × Nat) Nat := {}
  for h : i in [0 : a.items.size] do
    let mut here : HashMap Nat Bool := {}
    for p in a.items[i] do
      match n.after? p with
      | some s =>
        if n.isNonterminal s && !here.contains s then
          here := here.insert s true
          index := index.insert (i, s) list.size
          list := list.push (i, s)
      | none => pure ()
  return { list, index }

/-- The state behind a symbol. -/
def Automaton.goto (a : Automaton) (state symbol : Nat) : Nat :=
  match a.gotos[state]? with
  | some gotos => gotos.getD symbol 0
  | none => 0

/-- The terminals read directly behind each step, and the steps through symbols that derive
nothing whose terminals are read behind it too. -/
def Numbered.reads (n : Numbered) (a : Automaton) (nullable : Array Bool) (t : Transitions) :
    Array TerminalSet × Array (Nat × Nat) := Id.run do
  let mut direct : Array TerminalSet := #[]
  let mut edges : Array (Nat × Nat) := #[]
  for h : k in [0 : t.list.size] do
    let (state, symbol) := t.list[k]
    let behind := a.goto state symbol
    let mut set : TerminalSet := if state = 0 && (n.rhs.getD 0 #[])[0]? = some symbol then 1 else 0
    for p in a.items.getD behind #[] do
      match n.after? p with
      | some s =>
        if !n.isNonterminal s then
          set := set ||| (1 <<< s)
        else if nullable.getD s false then
          edges := edges.push (k, t.index.getD (behind, s) 0)
      | none => pure ()
    direct := direct.push set
  return (direct, edges)

/-- Which steps' followers contain which others', and in which state each rule begun at a step
is finished. -/
def Numbered.includes (n : Numbered) (a : Automaton) (nullable : Array Bool) (t : Transitions) :
    Array (Nat × Nat) × Array (Nat × Nat × Nat) := Id.run do
  let mut edges : Array (Nat × Nat) := #[]
  let mut finished : Array (Nat × Nat × Nat) := #[]
  for h : k in [0 : t.list.size] do
    let (state, symbol) := t.list[k]
    for p in a.items.getD state #[] do
      let rule := ruleOf p
      if n.lhs.getD rule 0 = symbol then
        let rhs := n.rhs.getD rule #[]
        let mut here := state
        for d in [dotOf p : rhs.size] do
          let s := rhs.getD d 0
          if n.isNonterminal s && (rhs.extract (d + 1) rhs.size).all fun x => nullable.getD x false then
            edges := edges.push (t.index.getD (here, s) 0, k)
          here := a.goto here s
        if dotOf p = 0 then
          finished := finished.push (here, rule, k)
  return (edges, finished)

/-- For each state and finished rule, the terminals that can follow. -/
def Numbered.lookaheads (n : Numbered) (a : Automaton) : HashMap (Nat × Nat) TerminalSet :=
    Id.run do
  let nullable := n.nullable
  let t := n.transitions a
  let (direct, readEdges) := n.reads a nullable t
  let read := propagate readEdges direct
  let (includeEdges, finished) := n.includes a nullable t
  let follow := propagate includeEdges read
  let mut result : HashMap (Nat × Nat) TerminalSet := {}
  for (state, rule, k) in finished do
    result := result.insert (state, rule) (result.getD (state, rule) 0 ||| follow.getD k 0)
  return result

/-! ### Actions -/

/-- The associativity and level of each symbol that has one. -/
def Grammar.precedence (g : Grammar) : HashMap String (Associativity × Nat) := Id.run do
  let mut result : HashMap String (Associativity × Nat) := {}
  let mut level := 1
  for (associativity, symbols) in g.levels do
    for s in symbols do
      result := result.insert s (associativity, level)
    level := level + 1
  return result

/-- A symbol outside the levels groups to the right at level zero. -/
def noPrecedence : Associativity × Nat := (.right, 0)

/-- The precedence of a rule: that of its last terminal. -/
def rulePrecedence (precedence : HashMap String (Associativity × Nat))
    (isTerminal : String → Bool) (p : Production) : Associativity × Nat :=
  match p.rhs.reverse.find? isTerminal with
  | some s => precedence.getD s noPrecedence
  | none => noPrecedence

/-- A reduction comes to a state where something is already to be done. -/
def addReduce (tokenLevel : Nat) (rule : Associativity × Nat) (production : Nat) :
    Option Action → Action
  | some (.shift state) =>
    if tokenLevel < rule.2 || (tokenLevel = rule.2 && rule.1 = .left) then .reduce production
    else if tokenLevel = rule.2 && rule.1 = .none then .refuse
    else .shift state
  | some (.reduce other) => .reduce (min other production)
  | some .accept => .accept
  | some .refuse | none => .reduce production

/-- A shift comes to a state where something is already to be done; `ruleOf` is the precedence
of the rule that is to be reduced there. -/
def addShift (tokenLevel : Nat) (precedenceOf : Nat → Associativity × Nat) (state : Nat) :
    Option Action → Action
  | some (.reduce production) =>
    let rule := precedenceOf production
    if rule.2 < tokenLevel || (tokenLevel = rule.2 && rule.1 = .right) then .shift state
    else if tokenLevel = rule.2 && rule.1 = .none then .refuse
    else .reduce production
  | some .accept => .accept
  | _ => .shift state

/-- The members of a set of terminals. -/
def members (terminals : Nat) (set : TerminalSet) : List Nat :=
  (List.range terminals).filter set.testBit

/-- The one reduction of a state that can do nothing else. -/
def soleReduction (actions : HashMap Nat Action) : Option Nat :=
  match actions.toList with
  | [(_, .reduce production)] => some production
  | _ => none

/-- The tables of a grammar. -/
def Grammar.tables (g : Grammar) : Tables := Id.run do
  let n := number g
  let a := n.automaton
  let lookaheads := n.lookaheads a
  let precedence := g.precedence
  let mut tokenLevels : Array Nat := Array.replicate n.terminals 0
  for (s, k) in n.symbols.toList do
    if k < n.terminals then
      tokenLevels := tokenLevels.set! k (precedence.getD s noPrecedence).2
  let isTerminal := fun s => n.symbols.getD s n.count < n.terminals
  let rulePrecedences := #[noPrecedence] ++ g.productions.map (rulePrecedence precedence isTerminal)
  let precedenceOf := fun r => rulePrecedences.getD r noPrecedence
  let mut actions : Array (HashMap Nat Action) := #[]
  for h : i in [0 : a.items.size] do
    let mut here : HashMap Nat Action := {}
    for p in a.items[i] do
      match n.after? p with
      | none =>
        let rule := ruleOf p
        if rule = 0 then
          here := here.insert 0 .accept
        else
          for t in members n.terminals (lookaheads.getD (i, rule) 0) do
            here := here.insert t
              (addReduce (tokenLevels.getD t 0) (precedenceOf rule) rule here[t]?)
      | some s =>
        if !n.isNonterminal s then
          here := here.insert s
            (addShift (tokenLevels.getD s 0) precedenceOf (a.goto i s) here[s]?)
    actions := actions.push here
  let shapes := (n.lhs.zip n.rhs).map fun (s, rhs) => (s, rhs.size)
  return { symbols := n.symbols, actions, defaults := actions.map soleReduction,
           gotos := a.gotos, shapes }

/-! ### Parsing -/

/-- What a parser needs besides the tables: how to read tokens, what they mean, what a rule makes
of the values of its symbols, and what to say about a token that does not fit. -/
structure Interface (Reader Token Value Fault : Type) where
  next : Reader → Except Fault (Option Token × Reader)
  kind : Token → String
  value : Token → Value
  build : Nat → List Value → Except Fault Value
  unexpected : Token → Fault
  unexpectedEnd : Fault
  broken : Fault

/-- A parser at work: the states passed with the values read, the last on top, and the next token
if it has been asked for. -/
structure Configuration (Reader Token Value : Type) where
  stack : List (Nat × Value)
  lookahead : Option (Option Token)
  reader : Reader

section
variable {Reader Token Value Fault : Type}

/-- The state on top of the stack. -/
def Configuration.state (c : Configuration Reader Token Value) : Nat :=
  match c.stack with
  | (state, _) :: _ => state
  | [] => 0

/-- What the tables say about a terminal in a state. -/
def Tables.action? (t : Tables) (state symbol : Nat) : Option Action :=
  match t.actions[state]? with
  | some actions => actions[symbol]?
  | none => none

/-- The state behind a symbol. -/
def Tables.goto? (t : Tables) (state symbol : Nat) : Option Nat :=
  match t.gotos[state]? with
  | some gotos => gotos[symbol]?
  | none => none

/-- The rule to be reduced whatever comes next. -/
def Tables.default? (t : Tables) (state : Nat) : Option Nat :=
  match t.defaults[state]? with
  | some production => production
  | none => none

/-- A finished rule is replaced by its symbol. -/
def reduce (t : Tables) (i : Interface Reader Token Value Fault)
    (c : Configuration Reader Token Value) (production : Nat) :
    Except Fault (Configuration Reader Token Value) := do
  let (symbol, length) := t.shapes.getD production (0, 0)
  let value ← i.build production ((c.stack.take length).map (·.2)).reverse
  let below := { c with stack := c.stack.drop length }
  match t.goto? below.state symbol with
  | some state => pure { below with stack := (state, value) :: below.stack }
  | none => throw i.broken

/-- One step: a reduction, a shift, or the result. -/
def step (t : Tables) (i : Interface Reader Token Value Fault)
    (c : Configuration Reader Token Value) :
    Except Fault (Configuration Reader Token Value ⊕ Value) := do
  match t.default? c.state with
  | some production => do pure (.inl (← reduce t i c production))
  | none =>
    let (token, reader) ← match c.lookahead with
      | some token => pure (token, c.reader)
      | none => i.next c.reader
    let c := { c with lookahead := some token, reader }
    let symbol := match token with
      | some token => t.symbols.getD (i.kind token) t.symbols.size
      | none => 0
    match t.action? c.state symbol with
    | some (.reduce production) => do pure (.inl (← reduce t i c production))
    | some (.shift state) =>
      match token with
      | some token =>
        pure (.inl { c with stack := (state, i.value token) :: c.stack, lookahead := none })
      | none => throw i.broken
    | some .accept =>
      match c.stack with
      | (_, value) :: _ => pure (.inr value)
      | [] => throw i.broken
    | some .refuse | none =>
      match token with
      | some token => throw (i.unexpected token)
      | none => throw i.unexpectedEnd

/-- Steps until the result. -/
def steps (t : Tables) (i : Interface Reader Token Value Fault) :
    Nat → Configuration Reader Token Value → Except Fault Value
  | 0, _ => throw i.broken
  | fuel + 1, c => do
    match ← step t i c with
    | .inl c => steps t i fuel c
    | .inr value => pure value

/-- Parses what a reader delivers, which is at most `size` tokens.  Between two tokens a parser
reduces each rule on its stack at most once for every symbol. -/
def parse (t : Tables) (i : Interface Reader Token Value Fault) (size : Nat) (reader : Reader) :
    Except Fault Value :=
  steps t i ((size + 2) * (t.symbols.size + 2) * 2) ⟨[], none, reader⟩

end

end PhpMigration.Lalr
