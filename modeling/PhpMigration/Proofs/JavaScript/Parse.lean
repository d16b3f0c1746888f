/-
That reading is reading by the rules.

Every phrase takes tokens off, except a few that may be empty, and a rule goes on behind what it has
read.  What it begins with has a lower rank, and all that follows has fewer tokens.  So two parsers
that agree on such phrases lead a rule to the same end (`rule_matches`).  `parse` asks for nothing
else where a rule goes on; it is never refused, and a phrase is read as its rule says (`parse_eq`).
-/
import PhpMigration.Proofs.JavaScript.Grammar

namespace PhpMigration.JavaScript

namespace Grammar

variable {α β : Type} {n m : Nat} {t : Token} {ts rest : List Token} {p q : Parser}

/-! ### Tokens that are passed over -/

theorem length_skip? (h : skip? t ts = some rest) : ts.length = rest.length + 1 := by
  cases ts with
  | nil => cases h
  | cons u us =>
      rw [skip?] at h
      split at h
      · rw [Option.some.inj h, List.length_cons]
      · cases h

theorem length_oneOf? {operators : List String} {operator : String}
    (h : oneOf? operators ts = some (operator, rest)) : ts.length = rest.length + 1 := by
  cases ts with
  | nil => cases h
  | cons u us =>
      rw [oneOf?] at h
      grind

theorem length_operator? {inOk : Bool} {least level : Nat} {operator : String}
    (h : operator? inOk least ts = some ((operator, level), rest)) :
    ts.length = rest.length + 1 := by
  cases ts with
  | nil => cases h
  | cons u us =>
      rw [operator?] at h
      grind

theorem length_binding? {name : Node} (h : binding? ts = some (name, rest)) :
    ts.length = rest.length + 1 := by
  unfold binding? at h
  grind

/-! ### Readings that agree -/

/-- Two readings have the same result, and it leaves fewer tokens than so many. -/
structure Matches (n : Nat) (a b : Option (α × List Token)) : Prop where
  eq : a = b
  lt : ∀ x rest, a = some (x, rest) → rest.length < n

namespace Matches

theorem none : Matches n (none : Option (α × List Token)) none := ⟨rfl, by simp⟩

theorem pure {x : α} (h : rest.length < n) : Matches n (pure (x, rest)) (pure (x, rest)) := by
  refine ⟨rfl, fun y more heq => ?_⟩
  obtain ⟨-, rfl⟩ := Prod.mk.inj (Option.some.inj heq)
  exact h

theorem mono {a b : Option (α × List Token)} (h : Matches n a b) (hle : n ≤ m) : Matches m a b :=
  ⟨h.eq, fun x rest heq => Nat.lt_of_lt_of_le (h.lt x rest heq) hle⟩

theorem bind {a b : Option (α × List Token)} {f g : α × List Token → Option (β × List Token)}
    (h : Matches n a b)
    (hnext : ∀ x rest, rest.length < n → Matches m (f (x, rest)) (g (x, rest))) :
    Matches m (a >>= f) (b >>= g) := by
  obtain ⟨rfl, hlt⟩ := h
  cases a with
  | none => exact Matches.none
  | some found => exact hnext found.1 found.2 (hlt found.1 found.2 rfl)

/-- A token that both pass over. -/
theorem skip {f g : List Token → Option (β × List Token)}
    (hnext : ∀ rest, ts.length = rest.length + 1 → Matches m (f rest) (g rest)) :
    Matches m (skip? t ts >>= f) (skip? t ts >>= g) := by
  cases h : skip? t ts with
  | none => exact Matches.none
  | some rest => exact hnext rest (length_skip? h)

end Matches

namespace Phrase

/-- A few phrases may be empty. -/
def slack {α : Type} : Phrase α → Nat
  | members _ | binaryFrom .. | initialValue | statements | otherwise => 1
  | expression _ | assignment _ | binary .. | unary | leftHandSide | primary | elements _
  | properties | propertyList | propertyKey | name | target | declarator | parameter | parameters
  | part .. | condition | statement | block => 0
  | listOf item => item.slack

theorem slack_le_one {α : Type} (φ : Phrase α) : φ.slack ≤ 1 := by
  induction φ with
  | listOf item ih => exact ih
  | _ => simp [slack]

end Phrase

/-- Two parsers agree on shorter tokens, and on tokens of the same length if the phrase has a lower
rank. -/
def Agree (length rank : Nat) (p q : Parser) : Prop :=
  ∀ {α : Type} (φ : Phrase α) (us : List Token),
    us.length < length ∨ us.length = length ∧ φ.rank < rank →
      Matches (us.length + φ.slack) (p φ us) (q φ us)

namespace Agree

variable {length rank : Nat} {us : List Token} {f g : α × List Token → Option (β × List Token)}

/-- A phrase of a lower rank that a rule begins with. -/
theorem first (h : Agree us.length rank p q) (φ : Phrase α) (hrank : φ.rank < rank)
    (hslack : φ.slack = 0)
    (hnext : ∀ x rest, rest.length < us.length → Matches m (f (x, rest)) (g (x, rest))) :
    Matches m (p φ us >>= f) (q φ us >>= g) :=
  (h φ us (Or.inr ⟨rfl, hrank⟩)).bind fun x rest hlt => hnext x rest (by omega)

/-- A phrase that a rule goes on with. -/
theorem next (h : Agree length rank p q) (φ : Phrase α) (hlt : us.length < length)
    (hslack : φ.slack = 0)
    (hnext : ∀ x rest, rest.length < us.length → Matches m (f (x, rest)) (g (x, rest))) :
    Matches m (p φ us >>= f) (q φ us >>= g) :=
  (h φ us (Or.inl hlt)).bind fun x rest hlt => hnext x rest (by omega)

/-- A phrase that a rule ends with. -/
theorem last (h : Agree length rank p q) (φ : Phrase α) (hlt : us.length < length)
    (hroom : us.length + φ.slack ≤ m) : Matches m (p φ us) (q φ us) :=
  (h φ us (Or.inl hlt)).mono hroom

end Agree

section Rules

variable {inOk : Bool} {rank : Nat}

attribute [local simp] Phrase.slack

theorem expression_matches (h : Agree ts.length 5 p q) :
    Matches ts.length (expression p inOk ts) (expression q inOk ts) := by
  refine h.first (.assignment inOk) (Nat.lt_succ_self _) rfl fun first rest hrest => ?_
  dsimp only
  split
  · have := length_skip? ‹_›
    refine h.next (.listOf (.assignment inOk)) (by omega) rfl fun es more hmore => ?_
    dsimp only
    exact .pure (by omega)
  · exact .pure hrest

theorem assignment_matches (h : Agree ts.length 4 p q) :
    Matches ts.length (assignment p inOk ts) (assignment q inOk ts) := by
  refine h.first (.binary inOk 4) (Nat.lt_succ_self _) rfl fun left rest hrest => ?_
  dsimp only
  split
  · have := length_skip? ‹_›
    refine h.next (.assignment true) (by omega) rfl fun consequent rest hrest => ?_
    refine .skip fun more hmore => ?_
    dsimp only at hmore
    refine h.next (.assignment inOk) (by omega) rfl fun alternate rest hrest => ?_
    dsimp only
    exact .pure (by omega)
  · split
    · have := length_oneOf? ‹_›
      split
      · refine h.next (.assignment inOk) (by omega) rfl fun right more hmore => ?_
        dsimp only
        exact .pure (by omega)
      · exact .none
    · exact .pure hrest

theorem binary_matches {least : Nat} (h : Agree ts.length 3 p q) :
    Matches ts.length (binary p inOk least ts) (binary q inOk least ts) :=
  h.first .unary (Nat.lt_succ_self _) rfl fun left _ hrest =>
    h.last (.binaryFrom inOk least left) hrest hrest

theorem binaryFrom_matches {least : Nat} {left : Node} (h : Agree ts.length 0 p q) :
    Matches (ts.length + 1) (binaryFrom p inOk least left ts)
      (binaryFrom q inOk least left ts) := by
  unfold binaryFrom
  split
  · have := length_operator? ‹_›
    refine h.next (.binary inOk _) (by omega) rfl fun right rest hrest => ?_
    exact h.last (.binaryFrom inOk least _) (by omega) (by simp only [Phrase.slack]; omega)
  · exact .pure (Nat.lt_succ_self _)

theorem unary_matches (h : Agree ts.length 2 p q) :
    Matches ts.length (unary p ts) (unary q ts) := by
  unfold unary
  split
  · have := length_oneOf? ‹_›
    refine h.next .unary (by omega) rfl fun argument rest hrest => ?_
    dsimp only
    exact .pure (by omega)
  · split
    · have := length_oneOf? ‹_›
      refine h.next .unary (by omega) rfl fun argument rest hrest => ?_
      dsimp only
      split
      · exact .pure (by omega)
      · exact .none
    · refine h.first .leftHandSide (Nat.lt_succ_self _) rfl fun argument rest hrest => ?_
      dsimp only
      split
      · have := length_oneOf? ‹_›
        split
        · exact .pure (by omega)
        · exact .none
      · exact .pure hrest

theorem leftHandSide_matches (h : Agree ts.length 1 p q) :
    Matches ts.length (leftHandSide p ts) (leftHandSide q ts) :=
  h.first .primary (Nat.lt_succ_self _) rfl fun object _ hrest =>
    h.last (.members object) hrest hrest

theorem members_matches {object : Node} (h : Agree ts.length 0 p q) :
    Matches (ts.length + 1) (members p object ts) (members q object ts) := by
  unfold members
  split
  · exact h.last (.members _) (by simp only [List.length_cons]; omega)
      (by simp only [Phrase.slack, List.length_cons]; omega)
  · exact .none
  · refine h.next (.expression true) (by simp) rfl fun property rest hrest =>
      .skip fun more hmore => ?_
    exact h.last (.members _) (by simp only [List.length_cons]; omega)
      (by simp only [Phrase.slack, List.length_cons]; omega)
  · refine h.next (.elements _) (by simp) rfl fun arguments rest hrest => ?_
    exact h.last (.members _) (by simp only [List.length_cons]; omega)
      (by simp only [Phrase.slack, List.length_cons]; omega)
  · exact .pure (Nat.lt_succ_self _)

theorem primary_matches (h : Agree ts.length 0 p q) :
    Matches ts.length (primary p ts) (primary q ts) := by
  unfold primary
  split
  · rename_i name us
    cases ofWord? name with
    | none => exact .none
    | some e => exact .pure (by simp)
  · exact .pure (by simp)
  · exact .pure (by simp)
  · refine h.next (.expression true) (by simp) rfl fun e rest hrest => .skip fun more hmore => ?_
    exact .pure (by simp only [List.length_cons]; omega)
  · refine h.next (.elements _) (by simp) rfl fun es rest hrest => ?_
    dsimp only
    exact .pure (by simp only [List.length_cons]; omega)
  · refine h.next .properties (by simp) rfl fun ps rest hrest => ?_
    dsimp only
    exact .pure (by simp only [List.length_cons]; omega)
  · exact .none

theorem elements_matches {close : Token} (h : Agree ts.length 6 p q) :
    Matches ts.length (elements p close ts) (elements q close ts) := by
  unfold elements
  split
  · have := length_skip? ‹_›
    exact .pure (by omega)
  · refine h.first (.listOf (.assignment true)) (Nat.lt_succ_self _) rfl fun es rest hrest => ?_
    refine .skip fun more hmore => ?_
    exact .pure (by omega)

theorem properties_matches (h : Agree ts.length 2 p q) :
    Matches ts.length (properties p ts) (properties q ts) := by
  unfold properties
  split
  · have := length_skip? ‹_›
    exact .pure (by omega)
  · refine h.first .propertyList (Nat.lt_succ_self _) rfl fun ps rest hrest =>
      .skip fun more hmore => ?_
    exact .pure (by omega)

theorem propertyList_matches (h : Agree ts.length 1 p q) :
    Matches ts.length (propertyList p ts) (propertyList q ts) := by
  refine h.first .propertyKey (Nat.lt_succ_self _) rfl fun key rest hrest =>
    .skip fun more hmore => ?_
  dsimp only at hmore ⊢
  refine h.next (.assignment true) (by omega) rfl fun value us hus => ?_
  dsimp only
  split
  · have := length_skip? ‹_›
    refine h.next .propertyList (by omega) rfl fun ps vs hvs => ?_
    dsimp only
    exact .pure (by omega)
  · exact .pure (by omega)

theorem propertyKey_matches (h : Agree ts.length 0 p q) :
    Matches ts.length (propertyKey p ts) (propertyKey q ts) := by
  unfold propertyKey
  split
  · exact .pure (by simp)
  · exact .pure (by simp)
  · exact .pure (by simp)
  · refine h.next (.assignment true) (by simp) rfl fun key rest hrest => .skip fun more hmore => ?_
    exact .pure (by simp only [List.length_cons]; omega)
  · exact .none

theorem listOf_matches {item : Phrase Node} (h : Agree ts.length (item.rank + 1) p q) :
    Matches (ts.length + item.slack) (listOf p item ts) (listOf q item ts) := by
  refine (h item ts (Or.inr ⟨rfl, Nat.lt_succ_self _⟩)).bind fun first rest hrest => ?_
  have hslack := item.slack_le_one
  dsimp only
  split
  · have := length_skip? ‹_›
    refine (h (.listOf item) _ (Or.inl (by omega))).bind fun es more hmore => ?_
    simp only [Phrase.slack] at hmore ⊢
    exact .pure (by omega)
  · exact .pure hrest

theorem binding?_matches : Matches ts.length (binding? ts) (binding? ts) :=
  ⟨rfl, fun _ _ heq => by have := length_binding? heq; omega⟩

theorem target_matches (h : Agree ts.length 1 p q) :
    Matches ts.length (target p ts) (target q ts) := by
  unfold target
  split
  · exact binding?_matches
  · have := length_skip? ‹_›
    split
    · have := length_skip? ‹_›
      exact .pure (by omega)
    · refine h.next (.listOf .name) (by omega) rfl fun names rest hrest =>
        .skip fun more hmore => ?_
      exact .pure (by omega)

theorem initialValue_matches (h : Agree ts.length 0 p q) :
    Matches (ts.length + 1) (initialValue p ts) (initialValue q ts) := by
  unfold initialValue
  split
  · have := length_skip? ‹_›
    exact h.last (.assignment true) (by omega) (by simp only [Phrase.slack]; omega)
  · exact .pure (Nat.lt_succ_self _)

theorem declarator_matches (h : Agree ts.length 2 p q) :
    Matches ts.length (declarator p ts) (declarator q ts) := by
  refine h.first .target (Nat.lt_succ_self _) rfl fun name rest hrest => ?_
  refine (h.last .initialValue hrest (Nat.le_refl _)).bind fun value more hmore => ?_
  simp only [Phrase.slack] at hmore ⊢
  exact .pure (by omega)

theorem parameter_matches (h : Agree ts.length 1 p q) :
    Matches ts.length (parameter p ts) (parameter q ts) := by
  refine binding?_matches.bind fun name rest hrest => ?_
  dsimp only
  split
  · have := length_skip? ‹_›
    refine h.next (.assignment true) (by omega) rfl fun value more hmore => ?_
    dsimp only
    exact .pure (by omega)
  · exact .pure hrest

theorem parameters_matches (h : Agree ts.length 3 p q) :
    Matches ts.length (parameters p ts) (parameters q ts) := by
  unfold parameters
  split
  · have := length_skip? ‹_›
    exact .pure (by omega)
  · refine h.first (.listOf .parameter) (Nat.lt_succ_self _) rfl fun params rest hrest => ?_
    refine .skip fun more hmore => ?_
    exact .pure (by omega)

theorem part_matches {close : Token} (h : Agree ts.length 6 p q) :
    Matches ts.length (part p inOk close ts) (part q inOk close ts) := by
  unfold part
  split
  · have := length_skip? ‹_›
    exact .pure (by omega)
  · refine h.first (.expression inOk) (Nat.lt_succ_self _) rfl fun e rest hrest => ?_
    refine .skip fun more hmore => ?_
    exact .pure (by omega)

theorem condition_matches (h : Agree ts.length 0 p q) :
    Matches ts.length (condition p ts) (condition q ts) := by
  refine .skip fun rest hrest => ?_
  refine h.next (.expression true) (by omega) rfl fun e more hmore => .skip fun us hus => ?_
  exact .pure (by omega)

theorem block_matches (h : Agree ts.length 0 p q) :
    Matches ts.length (block p ts) (block q ts) := by
  refine .skip fun rest hrest => ?_
  refine (h.last .statements (by omega) (Nat.le_refl _)).bind fun body more hmore => ?_
  simp only [Phrase.slack] at hmore
  refine .skip fun us hus => ?_
  exact .pure (by omega)

theorem otherwise_matches (h : Agree ts.length 0 p q) :
    Matches (ts.length + 1) (otherwise p ts) (otherwise q ts) := by
  unfold otherwise
  split
  · exact .pure (Nat.lt_succ_self _)
  · have := length_skip? ‹_›
    split
    · refine h.next .statement (by omega) rfl fun choice rest hrest => ?_
      dsimp only
      exact .pure (by omega)
    · exact h.last .block (by omega) (by simp only [Phrase.slack]; omega)

theorem statements_matches (h : Agree ts.length 7 p q) :
    Matches (ts.length + 1) (statements p ts) (statements q ts) := by
  unfold statements
  split
  · exact .pure (Nat.lt_succ_self _)
  · exact h.last .statements (by simp) (by simp [Phrase.slack])
  · exact .pure (Nat.lt_succ_self _)
  · refine h.first .statement (Nat.lt_succ_self _) rfl fun first rest hrest => ?_
    refine (h.last .statements hrest (Nat.le_refl _)).bind fun more us hus => ?_
    simp only [Phrase.slack] at hus ⊢
    exact .pure (by omega)

/-- The block behind the head of a statement. -/
theorem Agree.body (h : Agree n rank p q) {us : List Token} (mk : Node → Node)
    (hlt : us.length < n) :
    Matches n (p .block us >>= fun (body, ts) => pure (mk body, ts))
      (q .block us >>= fun (body, ts) => pure (mk body, ts)) := by
  refine h.next .block hlt rfl fun body rest hrest => ?_
  dsimp only
  exact .pure (by omega)

theorem statement_matches (h : Agree ts.length 6 p q) :
    Matches ts.length (statement p ts) (statement q ts) := by
  unfold statement
  split
  · exact (h .block _ (Or.inr ⟨rfl, by decide⟩)).mono (Nat.le_refl _)
  · refine h.next (.part true (Token.mark ";")) (by simp) rfl fun argument rest hrest => ?_
    dsimp only
    exact .pure (by simp only [List.length_cons]; omega)
  · refine h.next (.listOf .declarator) (by simp) rfl fun declared rest hrest =>
      .skip fun more hmore => ?_
    split
    · exact .pure (by simp only [List.length_cons]; omega)
    · exact .none
  · refine binding?_matches.bind fun name rest hrest => .skip fun us hus => ?_
    refine h.next .parameters (by simp only [List.length_cons]; omega) rfl fun params vs hvs => ?_
    exact h.body _ (by simp only [List.length_cons]; omega)
  · refine h.next .condition (by simp) rfl fun test rest hrest => ?_
    refine h.next .block (by simp only [List.length_cons]; omega) rfl fun consequent us hus => ?_
    refine (h.last .otherwise (by simp only [List.length_cons]; omega) (Nat.le_refl _)).bind
      fun alternate vs hvs => ?_
    simp only [Phrase.slack] at hvs ⊢
    exact .pure (by simp only [List.length_cons]; omega)
  · refine h.next .condition (by simp) rfl fun test rest hrest => ?_
    exact h.body _ (by simp only [List.length_cons]; omega)
  · refine .skip fun us hus => ?_
    split
    · have := length_skip? ‹_›
      refine h.next .target (by simp only [List.length_cons]; omega) rfl fun name rest hrest => ?_
      refine .skip fun vs hvs => ?_
      refine h.next (.assignment true) (by simp only [List.length_cons]; omega) rfl
        fun right rest hrest => .skip fun ws hws => ?_
      exact h.body (fun body => .forOf _ right body) (by simp only [List.length_cons]; omega)
    · refine h.next (.part false (Token.mark ";")) (by simp only [List.length_cons]; omega) rfl
        fun start rest hrest => ?_
      refine h.next (.part true (Token.mark ";")) (by simp only [List.length_cons]; omega) rfl
        fun test vs hvs => ?_
      refine h.next (.part true (Token.mark ")")) (by simp only [List.length_cons]; omega) rfl
        fun update ws hws => ?_
      exact h.body _ (by simp only [List.length_cons]; omega)
  · refine h.first (.expression true) (Nat.lt_succ_self _) rfl fun e rest hrest => ?_
    refine .skip fun more hmore => ?_
    exact .pure (by omega)

/-- **A rule depends only on how shorter tokens and phrases of a lower rank are read.** -/
theorem rule_matches (φ : Phrase α) (h : Agree ts.length φ.rank p q) :
    Matches (ts.length + φ.slack) (rule p φ ts) (rule q φ ts) := by
  cases φ with
  | expression inOk => exact expression_matches h
  | assignment inOk => exact assignment_matches h
  | binary inOk least => exact binary_matches h
  | binaryFrom inOk least left => exact binaryFrom_matches h
  | unary => exact unary_matches h
  | leftHandSide => exact leftHandSide_matches h
  | members object => exact members_matches h
  | primary => exact primary_matches h
  | elements close => exact elements_matches h
  | properties => exact properties_matches h
  | propertyList => exact propertyList_matches h
  | propertyKey => exact propertyKey_matches h
  | listOf item => exact listOf_matches h
  | name => exact binding?_matches
  | target => exact target_matches h
  | initialValue => exact initialValue_matches h
  | declarator => exact declarator_matches h
  | parameter => exact parameter_matches h
  | parameters => exact parameters_matches h
  | part inOk close => exact part_matches h
  | condition => exact condition_matches h
  | statement => exact statement_matches h
  | statements => exact statements_matches h
  | block => exact block_matches h
  | otherwise => exact otherwise_matches h

end Rules

/-! ### Reading by the rules -/

theorem parse_matches {α : Type} (φ : Phrase α) (ts : List Token) :
    Matches (ts.length + φ.slack) (parse φ ts) (rule @parse φ ts) := by
  rw [parse]
  refine rule_matches φ fun ψ us hlt => ?_
  rw [if_pos hlt]
  have ih := parse_matches ψ us
  exact ⟨rfl, ih.lt⟩
termination_by (ts.length, φ.rank)
decreasing_by exact Prod.lex_def.mpr hlt

/-- **A phrase is read as its rule says.** -/
theorem parse_eq (φ : Phrase α) (ts : List Token) : parse φ ts = rule @parse φ ts :=
  (parse_matches φ ts).eq

end Grammar

end PhpMigration.JavaScript
