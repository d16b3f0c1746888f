/-
What the printer writes for an expression, and how it is read.

Two things are known of every expression that has been printed (`Spells`): its text yields its
tokens, whatever follows that does not run into it, and its tokens are read as the expression.  In
addition its first token is one that expressions begin with, which is what keeps a list apart from
its closing bracket and a statement apart from a block.

A text in parentheses may be followed by anything and is read at every level, so one lemma
(`Spelled.within`) covers all decisions of the printer about parentheses: wherever a level is
needed, the text that is written is read at that level.
-/
import PhpMigration.Proofs.JavaScript.Operand
import PhpMigration.Proofs.JavaScript.Quoted

namespace PhpMigration.JavaScript

open Lexer Grammar

/-! ### The characters around an operand -/

/-- The character may stand behind the text of an operand. -/
structure MayFollow (A : Alphabet) (e : Node) (level : Nat) (c : Char) : Prop where
  no_name : A.continues c = false
  /-- Behind a number a point would go on with it. -/
  no_point : c = '.' → 18 ≤ level ∧ ∀ v, e ≠ .numericLiteral v

variable {A : Alphabet} {e : Node} {level : Nat} {c : Char}

theorem MayFollow.of_ends (h : A.EndsOperand c) : MayFollow A e level c where
  no_name := h.1
  no_point heq := absurd heq h.2

/-- Behind an operator no point may stand, so it does not matter which operand it was. -/
theorem MayFollow.ends (h : MayFollow A e level c) (hlt : level < 18) : A.EndsOperand c := by
  refine ⟨h.no_name, fun hpoint => ?_⟩
  have := (h.no_point hpoint).1
  omega

theorem MayFollow.of_lt {e' : Node} {level' : Nat} (h : MayFollow A e level c)
    (hlt : level < 18) : MayFollow A e' level' c :=
  MayFollow.of_ends (h.ends hlt)

/-- The character is a blank or a mark below 128, and no point. -/
def isDelimiter (c : Char) : Bool :=
  decide (c.toNat < 128) && !(c.isAlphanum || c = '_' || c = '$') && decide (c ≠ '.')

theorem endsOperand_of_isDelimiter (h : isDelimiter c = true) : A.EndsOperand c := by
  simp only [isDelimiter, Bool.and_eq_true, decide_eq_true_eq, Bool.not_eq_true'] at h
  exact ⟨A.continues_of_not_alphanum h.1.1 h.1.2, h.2⟩

theorem mayFollow_of_isDelimiter (h : isDelimiter c = true) : MayFollow A e level c :=
  MayFollow.of_ends (endsOperand_of_isDelimiter h)

/-! ### The first token -/

/-- The words that are no names and stand at the beginning of an expression. -/
def leadingWords : List String := ["null", "true", "false", "typeof", "void", "delete"]

/-- The marks that expressions begin with. -/
def leadingMarks : List String := ["(", "[", "\x7b", "!", "-", "+", "~", "++", "--"]

/-- An expression may begin with the token. -/
def mayBegin : Token → Bool
  | Token.word w => !reservedWords.contains w || leadingWords.contains w
  | Token.mark m => leadingMarks.contains m
  | .number .. | .text _ => true
  | Token.lineBreak => false

/-- The first token of a text, and what is known of the first character. -/
structure Begins (text : String) (t : Token) : Prop where
  mayBegin : mayBegin t = true
  not_empty : text.toList ≠ []
  not_equals : text.toList.head? ≠ some '='
  brace : t = Token.mark "\x7b" → text.toList.head? = some '\x7b'

theorem Begins.append {text : String} {t : Token} (h : Begins text t) (more : String) :
    Begins (text ++ more) t := by
  have hhead : (text ++ more).toList.head? = text.toList.head? := by
    obtain ⟨c, cs, hc⟩ := List.exists_cons_of_ne_nil h.not_empty
    simp [String.toList_append, hc]
  refine ⟨h.mayBegin, ?_, ?_, ?_⟩
  · simp [String.toList_append, h.not_empty]
  · rw [hhead]
    exact h.not_equals
  · rw [hhead]
    exact h.brace

/-! ### Spelling -/

/-- The text yields the tokens, and they are read as the expression. -/
structure Spells (A : Alphabet) (e : Node) (level : Nat) (openIn : Bool) (text : String)
    (t : Token) (ts : List Token) : Prop where
  lexes : A.Lexes text.toList (t :: ts) (MayFollow A e level)
  reads : Reads e level openIn (t :: ts)
  begins : Begins text t
  operand : 18 ≤ level → beginsOperator t = false

/-- What has been printed for an expression is read as that expression, at the level that it was
printed for. -/
structure Spelled (A : Alphabet) (e : Node) (r : Rendered) : Prop where
  isText : r.isText = true
  precedence : r.precedence = e.precedence
  spells : ∃ t ts, Spells A e e.precedence e.hasOpenIn r.text t ts

/-- The pairs of brackets. -/
def brackets : List (String × String) := [("(", ")"), ("[", "]")]

/-- A text in brackets may be followed by anything. -/
theorem lexes_bracketed {a b text : String} {ts : List Token} (hab : (a, b) ∈ brackets)
    (h : A.Lexes text.toList ts (MayFollow A e level)) :
    A.Lexes (a ++ text ++ b).toList (Token.mark a :: (ts ++ [Token.mark b])) Alphabet.anything := by
  have hall : ∀ p ∈ brackets, p.1 ∈ Alphabet.solitaryMarks ∧ p.2 ∈ Alphabet.solitaryMarks ∧
      p.2.toList ≠ [] ∧ p.2.toList.head?.all isDelimiter = true := by decide
  obtain ⟨ha, hb, hne, hdelimiter⟩ := hall _ hab
  have hinner := h.append (A.lexes_solitary hb) hne fun c hc =>
    mayFollow_of_isDelimiter (by simpa [hc] using hdelimiter)
  simpa [String.toList_append] using (A.lexes_solitary ha).append_any hinner

theorem Spells.parenthesized {openIn : Bool} {text : String} {t : Token} {ts : List Token}
    (h : Spells A e level openIn text t ts) :
    Spells A e 20 false ("(" ++ text ++ ")") (Token.mark "(") (t :: ts ++ [Token.mark ")"]) where
  lexes := (lexes_bracketed (by decide) h.lexes).mono fun _ _ => trivial
  reads := h.reads.parenthesized (by decide)
  begins := by
    refine ⟨by decide, ?_, ?_, ?_⟩
    all_goals simp [String.toList_append]
  operand _ := by decide

/-- Where a level is needed, what is written is read at that level.  In parentheses the operator
`in` does not show. -/
theorem Spelled.within {r : Rendered} (h : Spelled A e r) (least : Nat) (hle : least ≤ 20) :
    ∃ level t ts, least ≤ level ∧
      Spells A e level (decide (least ≤ e.precedence) && e.hasOpenIn) (r.within least) t ts := by
  obtain ⟨t, ts, hs⟩ := h.spells
  rw [Rendered.within, h.precedence]
  by_cases hlt : e.precedence < least
  · rw [if_pos hlt, decide_eq_false (by omega), Bool.false_and]
    exact ⟨20, _, _, hle, hs.parenthesized⟩
  · rw [if_neg hlt, decide_eq_true (by omega), Bool.true_and]
    exact ⟨e.precedence, t, ts, by omega, hs⟩

theorem Spelled.textWithin {r : Rendered} (h : Spelled A e r) (least : Nat) :
    r.textWithin least = .ok (r.within least) := by
  rw [Rendered.textWithin, if_pos h.isText]
  rfl

/-! ### Names, numbers and texts -/

theorem begins_mark_char {c : Char} (h : A.begins c = true) : c ≠ '=' ∧ c ≠ '\x7b' := by
  have hcontinues := A.continues_of_begins c h
  constructor
  · rintro rfl
    rw [A.continues_of_not_alphanum (by decide) (by decide)] at hcontinues
    simp at hcontinues
  · rintro rfl
    rw [A.continues_of_not_alphanum (by decide) (by decide)] at hcontinues
    simp at hcontinues

/-- What no operator can take apart and is a single token. -/
theorem Spelled.atom {text : String} {t : Token} (hlevel : e.precedence = 20)
    (hopen : e.hasOpenIn = false) (hlex : A.Lexes text.toList [t] (MayFollow A e 20))
    (hread : ∀ rest, parse .primary (t :: rest) = some (e, rest)) (hbegins : Begins text t)
    (hoperand : beginsOperator t = false) : Spelled A e (.atom text) where
  isText := rfl
  precedence := hlevel.symm
  spells := by
    refine ⟨t, [], ?_⟩
    rw [hlevel, hopen]
    exact ⟨hlex, Reads.of_primary (by decide) hoperand hread, hbegins, fun _ => hoperand⟩

/-- A word that is made like a name. -/
theorem begins_word {name : String} (h : A.IsName name) (hword : mayBegin (Token.word name) = true) :
    Begins name (Token.word name) := by
  obtain ⟨c, cs, hname, hc, -⟩ := h
  refine ⟨hword, ?_, ?_, ?_⟩
  · simp [hname]
  · rw [hname]
    simpa using (begins_mark_char hc).1
  · intro h
    simp at h

/-- The operators before an operand are reserved words, or no names. -/
theorem not_beginsOperator_of_isVariable {name : String} (h : A.IsVariable name) :
    beginsOperator (Token.word name) = false := by
  have hwords : ∀ s ∈ unaryOperators ++ updateOperators, s ∈ reservedWords ∨
      ∃ c cs, s.toList = c :: cs ∧ c.toNat < 128 ∧ (c.isAlphanum || c = '_' || c = '$') = false := by
    intro s hs
    simp only [unaryOperators, updateOperators, List.cons_append, List.nil_append, List.mem_cons,
      List.not_mem_nil, or_false] at hs
    rcases hs with rfl | rfl | rfl | rfl | rfl | rfl | rfl | rfl | rfl
    case inr.inr.inr.inr.inl => exact Or.inl (by decide)
    case inr.inr.inr.inr.inr.inl => exact Or.inl (by decide)
    case inr.inr.inr.inr.inr.inr.inl => exact Or.inl (by decide)
    all_goals exact Or.inr ⟨_, _, rfl, by decide, by decide⟩
  rw [beginsOperator, symbol?, Option.any_some, Bool.eq_false_iff]
  intro hmem
  rcases hwords name (by simpa using hmem) with hreserved | ⟨c, cs, hname, hascii, hmark⟩
  · exact h.2 hreserved
  · obtain ⟨d, ds, hname', hd, -⟩ := h.1
    rw [hname] at hname'
    obtain ⟨rfl, rfl⟩ := List.cons.inj hname'
    have := A.continues_of_begins c hd
    rw [A.continues_of_not_alphanum hascii hmark] at this
    simp at this

theorem Spelled.identifier {name : String} (h : A.IsVariable name) :
    Spelled A (.identifier (.text name)) (.ofName (.text name)) := by
  refine Spelled.atom rfl rfl ?_ ?_ ?_ (not_beginsOperator_of_isVariable h)
  · exact (A.lexes_word h.1).mono fun c hc => hc.no_name
  · intro rest
    have hkeep : ∀ w ∈ ["null", "true", "false"], name ≠ w := by
      rintro w hw rfl
      exact h.2 ((by decide : ∀ w ∈ ["null", "true", "false"], w ∈ reservedWords) name hw)
    have hword : ofWord? name = some (.identifier (.text name)) := by
      rw [ofWord?, if_neg (hkeep _ (by decide)), if_neg (hkeep _ (by decide)),
        if_neg (hkeep _ (by decide)), if_neg (by simpa using h.2)]
    rw [parse_eq .primary, rule, Grammar.primary, hword]
    rfl
  · refine begins_word h.1 ?_
    simp [mayBegin, h.2]

theorem Spelled.stringLiteral (s : String) :
    Spelled A (.stringLiteral (.text s)) (.atom (Quoted.quoteValue (.text s))) := by
  have hquote : (Quoted.quoteValue (.text s)).toList =
      '\'' :: (s.toList.flatMap Quoted.escape ++ ['\'']) := Quoted.quote_eq s
  refine Spelled.atom (t := .text s) rfl rfl ?_ ?_ ?_ rfl
  · exact (A.lexes_quote s).mono fun _ _ => trivial
  · intro rest
    rw [parse_eq .primary, rule, Grammar.primary]
    rfl
  · refine ⟨rfl, ?_, ?_, ?_⟩
    all_goals simp [hquote]

theorem ofNumber_nat (n : Nat) : Rendered.ofNumber (.number (.int n)) = .atom (toString n) := by
  have hshown : literalText (.number (.int (n : Int))) = toString n := rfl
  rw [Rendered.ofNumber, hshown, if_neg (Text.toString_head_ne n (by decide))]
  rfl

theorem rendered_nat {n : Nat} (h : (Value.number (.int n)).isWritable = true) :
    (Node.numericLiteral (.number (.int n))).rendered = .ok (.ofNumber (.number (.int n))) := by
  rw [Node.rendered, Rendered.ofLiteral, if_pos h]
  rfl

theorem Spelled.numericLiteral (n : Nat) :
    Spelled A (.numericLiteral (.number (.int n))) (.ofNumber (.number (.int n))) := by
  rw [ofNumber_nat]
  refine Spelled.atom (t := .number n 0) rfl rfl ?_ ?_ ?_ rfl
  · refine (A.lexes_number n).mono fun d hd => ⟨hd.no_name, ?_⟩
    intro hpoint
    exact (hd.no_point hpoint).2 _ rfl
  · intro rest
    rw [parse_eq .primary, rule, Grammar.primary]
    rfl
  · obtain ⟨c, cs, hcs, -⟩ := Text.toString_head n
    refine ⟨rfl, by rw [hcs]; simp, Text.toString_head_ne n (by decide), ?_⟩
    intro h
    simp at h

theorem Spelled.word {name : String} (hlevel : e.precedence = 20) (hopen : e.hasOpenIn = false)
    (hletters : Alphabet.isLetters name = true) (hword : ofWord? name = some e)
    (hbegin : mayBegin (Token.word name) = true) (hoperand : beginsOperator (Token.word name) = false) :
    Spelled A e (.atom name) := by
  have hname : A.IsName name := A.isName_of_isLetters hletters
  refine Spelled.atom hlevel hopen ?_ ?_ (begins_word hname hbegin) hoperand
  · exact (A.lexes_word hname).mono fun c hc => hc.no_name
  · intro rest
    rw [parse_eq .primary, rule, Grammar.primary, hword]
    rfl

/-! ### Operators between operands -/

/-- The token of an operator that stands between two operands. -/
def operatorToken (s : String) : Token := if Alphabet.isLetters s then Token.word s else Token.mark s

/-- Everything that may be written with a blank behind it. -/
def spacedSymbols : List String :=
  ["?", ":"] ++ unaryOperators ++ assignmentOperators ++ Precedence.table.map Prod.fst

/-- An operator that is a word or a mark. -/
theorem lexes_operator {s : String} (h : Alphabet.isLetters s = true ∨ s ∈ marks) :
    A.Lexes s.toList [operatorToken s] (· = ' ') := by
  unfold operatorToken
  by_cases hletters : Alphabet.isLetters s = true
  · rw [if_pos hletters]
    refine (A.lexes_word (A.isName_of_isLetters hletters)).mono ?_
    rintro c rfl
    exact A.continues_of_not_alphanum (by decide) (by decide)
  · rw [if_neg hletters]
    refine (A.lexes_mark (h.resolve_left hletters)).mono ?_
    rintro c rfl
    exact ⟨Alphabet.blank_not_mem_followers s, fun _ => by decide⟩

theorem lexes_symbol {s : String} (hs : s ∈ spacedSymbols) :
    A.Lexes s.toList [operatorToken s] (· = ' ') :=
  lexes_operator
    ((by decide +kernel : ∀ s ∈ spacedSymbols, Alphabet.isLetters s = true ∨ s ∈ marks) s hs)

/-- Two texts with an operator between them. -/
def spaced (left s right : String) : String := left ++ " " ++ s ++ " " ++ right

theorem lexes_spaced {left right s : String} {ts us : List Token} {next : Char → Prop}
    (hs : s ∈ spacedSymbols) (hl : A.Lexes left.toList ts (MayFollow A e level))
    (hr : A.Lexes right.toList us next) :
    A.Lexes (spaced left s right).toList (ts ++ operatorToken s :: us) next := by
  have hblank : A.Lexes [' '] [] Alphabet.anything := A.lexes_blank (by decide)
  have hsymbol : A.Lexes (s.toList ++ [' ']) [operatorToken s] Alphabet.anything :=
    (lexes_symbol hs).append hblank (by simp) (by
      intro c hc
      exact (Option.some.inj hc).symm)
  have hall := hl.append (hblank.append_any (hsymbol.append_any hr)) (by simp) (by
    intro c hc
    obtain rfl := Option.some.inj hc
    exact mayFollow_of_isDelimiter (by decide))
  have htext : (spaced left s right).toList =
      left.toList ++ ([' '] ++ (s.toList ++ [' '] ++ right.toList)) := by
    simp [spaced, String.toList_append]
  rw [htext]
  exact hall

/-- What the grammar and the printer know of an operator between two operands. -/
theorem isOperator_of_mem {operator : String} (h : (operator, level) ∈ Precedence.table) :
    IsOperator operator level (operatorToken operator) ∧
      Precedence.ofBinary (.text operator) = level ∧ operator ∈ spacedSymbols := by
  have hall : ∀ p ∈ Precedence.table, symbol? (operatorToken p.1) = some p.1 ∧
      levels.lookup p.1 = some p.2 ∧ 4 ≤ p.2 ∧ p.2 < 15 ∧
      continuesOperand (operatorToken p.1) = false ∧
      (p.1 = "in" → operatorToken p.1 = Token.word "in") ∧
      Precedence.table.lookup p.1 = some p.2 := by decide
  obtain ⟨hsymbol, hlookup, hge, hlt, hends, hword, htable⟩ := hall _ h
  refine ⟨⟨hsymbol, hlookup, hge, hlt, hends, hword⟩, ?_, ?_⟩
  · rw [Precedence.ofBinary, htable]
    rfl
  · exact List.mem_append_right _ (List.mem_map_of_mem h)

/-- Two operands with an operator that groups to the left. -/
theorem Spelled.ofBinary {operator : String} {left right : Node} {rl rr : Rendered}
    (hop : (operator, level) ∈ Precedence.table) (hl : Spelled A left rl)
    (hr : Spelled A right rr) (hprecedence : e.precedence = level)
    (he : e = joined operator left right)
    (hopen : e.hasOpenIn = (operator == "in" || decide (level ≤ left.precedence) && left.hasOpenIn ||
      decide (level + 1 ≤ right.precedence) && right.hasOpenIn)) :
    Spelled A e (.ofBinary (.text operator) rl rr) := by
  obtain ⟨hoperator, hlevel, hspaced⟩ := isOperator_of_mem hop
  have hge := hoperator.four_le
  have hlt := hoperator.lt_fifteen
  obtain ⟨p, t, ts, hp, hsl⟩ := hl.within level (by omega)
  obtain ⟨q, u, us, hq, hsr⟩ := hr.within (level + 1) (by omega)
  refine ⟨rfl, ?_, t, ts ++ operatorToken operator :: u :: us, ?_⟩
  · rw [hprecedence, ← hlevel]
    rfl
  · have htext : (Rendered.ofBinary (.text operator) rl rr).text =
        spaced (rl.within level) operator (rr.within (level + 1)) := by
      rw [Rendered.ofBinary, hlevel]
      rfl
    rw [htext, hprecedence, hopen]
    refine ⟨?_, ?_, ?_, by omega⟩
    · exact (lexes_spaced hspaced hsl.lexes hsr.lexes).mono fun c hc => hc.of_lt (by omega)
    · rw [he]
      exact Reads.joined hoperator hsl.reads hsr.reads hp hq
    · exact ((((hsl.begins.append _).append _).append _).append _)

/-- An assignment, which groups to the right. -/
theorem Spelled.ofAssignment {operator : String} {left right : Node} {rl rr : Rendered}
    (hop : operator ∈ assignmentOperators) (hplace : isPlace left = true) (hl : Spelled A left rl)
    (hr : Spelled A right rr) :
    Spelled A (.assignment (.text operator) left right)
      (.ofAssignment (.text operator) rl rr) := by
  obtain ⟨p, t, ts, hp, hsl⟩ := hl.within 18 (by decide)
  obtain ⟨q, u, us, hq, hsr⟩ := hr.within 2 (by decide)
  have hclosed : left.hasOpenIn = false := by
    cases left
    all_goals first
      | rfl
      | simp [isPlace] at hplace
  have htoken : operatorToken operator = Token.mark operator :=
    (by decide : ∀ s ∈ assignmentOperators, operatorToken s = Token.mark s) operator hop
  have hspaced : operator ∈ spacedSymbols :=
    List.mem_append_left _ (List.mem_append_right _ hop)
  refine ⟨rfl, rfl, t, ts ++ Token.mark operator :: u :: us, ?_, ?_, ?_, ?_⟩
  · rw [← htoken]
    exact (lexes_spaced hspaced hsl.lexes hsr.lexes).mono fun c hc => hc.of_lt (show 2 < 18 by decide)
  · have hread := hsl.reads
    rw [hclosed, Bool.and_false] at hread
    rw [Node.hasOpenIn]
    exact Reads.assigned hread hsr.reads (by omega) hq hplace hop
  · exact ((((hsl.begins.append _).append _).append _).append _)
  · intro h
    exact absurd h (show ¬18 ≤ 2 by decide)

/-- A choice between two expressions. -/
theorem Spelled.ofConditional {test consequent alternate : Node} {rt rc ra : Rendered}
    (ht : Spelled A test rt) (hc : Spelled A consequent rc) (ha : Spelled A alternate ra) :
    Spelled A (.conditional test consequent alternate) (.ofConditional rt rc ra) := by
  obtain ⟨p, t, ts, hp, hst⟩ := ht.within 4 (by decide)
  obtain ⟨q, u, us, hq, hsc⟩ := hc.within 2 (by decide)
  obtain ⟨r, v, vs, hr, hsa⟩ := ha.within 2 (by decide)
  have htext : (Rendered.ofConditional rt rc ra).text =
      spaced (rt.within 4) "?" (spaced (rc.within 2) ":" (ra.within 2)) := by
    simp [Rendered.ofConditional, spaced, Precedence.conditional, Precedence.assignment,
      String.append_assoc]
  refine ⟨rfl, rfl, t, ts ++ Token.mark "?" :: (u :: us ++ Token.mark ":" :: (v :: vs)), ?_, ?_, ?_, ?_⟩
  · rw [htext]
    have hinner := lexes_spaced (s := ":") (by decide) hsc.lexes hsa.lexes
    exact (lexes_spaced (s := "?") (by decide) hst.lexes hinner).mono fun c hc =>
      hc.of_lt (show 3 < 18 by decide)
  · rw [Node.hasOpenIn]
    exact Reads.choice hst.reads hsc.reads hsa.reads hp hq hr
  · rw [htext]
    exact ((((hst.begins.append _).append _).append _).append _)
  · intro h
    exact absurd h (show ¬18 ≤ 3 by decide)

/-! ### Operators before and behind an operand -/

/-- Where no blank is written behind an operator, the operand does not make it longer. -/
theorem separator_cases {s text : String} (hs : s ∈ unaryOperators)
    (htext : text.toList.head? ≠ some '=') :
    Rendered.separator s text = " " ∨
      Rendered.separator s text = "" ∧ s ∈ marks ∧ s ≠ "." ∧ Alphabet.isLetters s = false ∧
        ∀ c, text.toList.head? = some c → c ∉ Alphabet.followers s := by
  have hequals : ∀ c, text.toList.head? = some c → c ≠ '=' := by
    rintro c hc rfl
    exact htext hc
  have hsame : ∀ d : Char, [d].isPrefixOf text.toList = false →
      ∀ c, text.toList.head? = some c → c ≠ d := by
    rintro d hd c hc rfl
    obtain ⟨cs, hcs⟩ := List.head?_eq_some_iff.mp hc
    simp [hcs] at hd
  simp only [unaryOperators, List.mem_cons, List.not_mem_nil, or_false] at hs
  rcases hs with rfl | rfl | rfl | rfl | rfl | rfl | rfl
  · refine Or.inr ⟨rfl, by decide, by decide, by decide, ?_⟩
    intro c hc
    rw [(by decide : Alphabet.followers "!" = ['=', '='])]
    simp [hequals c hc]
  · cases h : ['-'].isPrefixOf text.toList with
    | true => exact Or.inl (by simp [Rendered.separator, h])
    | false =>
        have hletter : Text.isLetter '-' = false := by decide
        refine Or.inr ⟨by simp [Rendered.separator, h, hletter], by decide, by decide, by decide, ?_⟩
        intro c hc
        rw [(by decide : Alphabet.followers "-" = ['-', '='])]
        simp [hequals c hc, hsame _ h c hc]
  · cases h : ['+'].isPrefixOf text.toList with
    | true => exact Or.inl (by simp [Rendered.separator, h])
    | false =>
        have hletter : Text.isLetter '+' = false := by decide
        refine Or.inr ⟨by simp [Rendered.separator, h, hletter], by decide, by decide, by decide, ?_⟩
        intro c hc
        rw [(by decide : Alphabet.followers "+" = ['+', '='])]
        simp [hequals c hc, hsame _ h c hc]
  · refine Or.inr ⟨rfl, by decide, by decide, by decide, ?_⟩
    intro c _
    rw [(by decide : Alphabet.followers "~" = [])]
    simp
  all_goals exact Or.inl rfl

/-- The operator, with the blank that keeps it apart from its operand. -/
theorem lexes_before_operand {s text : String} (hs : s ∈ unaryOperators)
    (htext : text.toList.head? ≠ some '=') :
    A.Lexes (s ++ Rendered.separator s text).toList [operatorToken s]
      fun c => text.toList.head? = some c := by
  have hspaced : s ∈ spacedSymbols :=
    List.mem_append_left _ (List.mem_append_left _ (List.mem_append_right _ hs))
  rcases separator_cases hs htext with hblank | ⟨hnone, hmark, hdot, hletters, hfollow⟩
  · have hsymbol := (lexes_symbol (A := A) hspaced).append (A.lexes_blank (c := ' ') (by decide))
      (by simp) (by
        intro c hc
        exact (Option.some.inj hc).symm)
    rw [hblank, String.toList_append]
    exact hsymbol.mono fun _ _ => trivial
  · rw [hnone, String.append_empty, operatorToken, if_neg (by simp [hletters])]
    exact (A.lexes_mark hmark).mono fun c hc => ⟨hfollow c hc, fun heq => absurd heq hdot⟩

theorem lexes_unary {s text : String} {ts : List Token} {next : Char → Prop}
    (hs : s ∈ unaryOperators) (htext : text.toList.head? ≠ some '=') (hne : text.toList ≠ [])
    (hlex : A.Lexes text.toList ts next) :
    A.Lexes (s ++ Rendered.separator s text ++ text).toList (operatorToken s :: ts) next := by
  rw [String.toList_append]
  exact (lexes_before_operand hs htext).append hlex hne fun c hc => hc

/-- An operator before its operand. -/
theorem Spelled.ofUnary {operator : String} {argument : Node} {r : Rendered}
    (hop : operator ∈ unaryOperators) (h : Spelled A argument r) :
    ∃ r', Rendered.ofUnary (.text operator) r = .ok r' ∧
      Spelled A (.unary (.text operator) argument) r' := by
  obtain ⟨p, t, ts, hp, hs⟩ := h.within 15 (by decide)
  let text := operator ++ Rendered.separator operator (r.within 15) ++ r.within 15
  refine ⟨⟨text, 15, true⟩, ?_, rfl, rfl, operatorToken operator, t :: ts, ?_, ?_, ?_, ?_⟩
  · simp only [Rendered.ofUnary, h.isText]
    rfl
  · exact (lexes_unary hop hs.begins.not_equals hs.begins.not_empty hs.lexes).mono
      fun c hc => hc.of_lt (show 15 < 18 by decide)
  · have hsymbol : symbol? (operatorToken operator) = some operator :=
      (by decide : ∀ s ∈ unaryOperators, symbol? (operatorToken s) = some s) operator hop
    exact hs.reads.unary_operator hp hsymbol hop
  · have hall : ∀ s ∈ unaryOperators, mayBegin (operatorToken s) = true ∧ s.toList ≠ [] ∧
        s.toList.head? ≠ some '=' ∧ operatorToken s ≠ Token.mark "\x7b" := by decide
    obtain ⟨hbegin, hne, hequals, hbrace⟩ := hall operator hop
    have hbegins : Begins operator (operatorToken operator) :=
      ⟨hbegin, hne, hequals, fun h => absurd h hbrace⟩
    exact (hbegins.append _).append _
  · intro h
    exact absurd h (show ¬18 ≤ 15 by decide)

theorem lexes_update {operator : String} (h : operator ∈ updateOperators) :
    A.Lexes operator.toList [Token.mark operator] Alphabet.anything := by
  have hall : ∀ s ∈ updateOperators, s ∈ Alphabet.solitaryMarks := by decide
  exact A.lexes_solitary (hall operator h)

/-- An increment or decrement, before or behind its operand. -/
theorem Spelled.ofUpdate {operator : String} {argument : Node} {r : Rendered} (before : Bool)
    (hop : operator ∈ updateOperators) (hplace : isPlace argument = true)
    (h : Spelled A argument r) :
    ∃ r', Rendered.ofUpdate (.text operator) before r = .ok r' ∧
      Spelled A (.update (.text operator) argument before) r' := by
  cases before with
  | true =>
      obtain ⟨p, t, ts, hp, hs⟩ := h.within 15 (by decide)
      refine ⟨⟨operator ++ r.within 15, 15, true⟩, ?_, rfl, rfl, Token.mark operator, t :: ts, ?_, ?_, ?_,
        ?_⟩
      · simp only [Rendered.ofUpdate, Precedence.unary, h.textWithin]
        rfl
      · have hall := (lexes_update hop).append_any hs.lexes
        rw [String.toList_append]
        exact hall.mono fun c hc => hc.of_lt (show 15 < 18 by decide)
      · exact hs.reads.update_before hp hplace hop
      · have hall : ∀ s ∈ updateOperators, mayBegin (Token.mark s) = true ∧ s.toList ≠ [] ∧
            s.toList.head? ≠ some '=' ∧ Token.mark s ≠ Token.mark "\x7b" := by decide
        obtain ⟨hbegin, hne, hequals, hbrace⟩ := hall operator hop
        exact Begins.append ⟨hbegin, hne, hequals, fun h => absurd h hbrace⟩ _
      · intro h
        exact absurd h (show ¬18 ≤ 15 by decide)
  | false =>
      obtain ⟨p, t, ts, hp, hs⟩ := h.within 18 (by decide)
      refine ⟨⟨r.within 18 ++ operator, 16, true⟩, ?_, rfl, rfl, t, ts ++ [Token.mark operator], ?_, ?_,
        ?_, ?_⟩
      · simp only [Rendered.ofUpdate, Precedence.member, h.textWithin]
        rfl
      · have hne : operator.toList ≠ [] :=
          (by decide : ∀ s ∈ updateOperators, s.toList ≠ []) operator hop
        have hhead : ∀ c, operator.toList.head? = some c → isDelimiter c = true := by
          have hall : ∀ s ∈ updateOperators, s.toList.head?.all isDelimiter = true := by decide
          intro c hc
          simpa [hc] using hall operator hop
        rw [String.toList_append]
        exact (hs.lexes.append (lexes_update hop) hne fun c hc =>
          mayFollow_of_isDelimiter (hhead c hc)).mono fun _ _ => trivial
      · exact hs.reads.update_behind (hs.operand hp) hp hplace hop
      · exact hs.begins.append _
      · intro h
        exact absurd h (show ¬18 ≤ 16 by decide)

/-! ### Lists of expressions -/

/-- The text of some expressions with commas between them. -/
structure SpellsList (A : Alphabet) (es : List Node) (openIn : Bool) (text : String) (t : Token)
    (ts : List Token) : Prop where
  lexes : A.Lexes text.toList (t :: ts) A.EndsOperand
  reads : ReadsList es openIn (t :: ts)
  begins : Begins text t

theorem commaList_single {r : Rendered} {least : Nat} {text : String}
    (h : r.textWithin least = .ok text) : Rendered.commaList least [r] = .ok text := by
  simp [Rendered.commaList, h, bind, Except.bind, pure, Except.pure, String.intercalate_singleton]

theorem commaList_cons {r : Rendered} {rs : List Rendered} {least : Nat} {first text : String}
    (h : r.textWithin least = .ok first) (hrs : Rendered.commaList least rs = .ok text)
    (hne : rs ≠ []) : Rendered.commaList least (r :: rs) = .ok (first ++ ", " ++ text) := by
  obtain ⟨s, rs, rfl⟩ := List.exists_cons_of_ne_nil hne
  rw [Rendered.commaList, List.mapM_cons] at hrs ⊢
  rw [h, List.mapM_cons]
  cases hs : s.textWithin least with
  | error => simp [hs, bind, Except.bind] at hrs
  | ok second =>
      cases hmore : rs.mapM (Rendered.textWithin least) with
      | error => simp [hs, hmore, bind, Except.bind] at hrs
      | ok more =>
          simp only [hs, hmore, bind, Except.bind, pure, Except.pure, Except.ok.injEq] at hrs ⊢
          rw [String.intercalate_cons_of_ne_nil (by simp), hrs]

/-- Two texts with a comma or a colon behind the first. -/
theorem lexes_separated {m first text : String} {ts us : List Token} {next : Char → Prop}
    (hm : m = "," ∨ m = ":") (hf : A.Lexes first.toList ts (MayFollow A e level))
    (h : A.Lexes text.toList us next) :
    A.Lexes (first ++ (m ++ " ") ++ text).toList (ts ++ Token.mark m :: us) next := by
  have hsymbol : A.Lexes m.toList [Token.mark m] Alphabet.anything := by
    rcases hm with rfl | rfl
    all_goals exact A.lexes_solitary (by decide)
  have hblank : A.Lexes [' '] [] Alphabet.anything := A.lexes_blank (by decide)
  have hall := hf.append (hsymbol.append_any (hblank.append_any h)) (by simp) (by
    intro c hc
    refine mayFollow_of_isDelimiter ?_
    rcases hm with rfl | rfl
    all_goals
      obtain rfl := Option.some.inj hc
      decide)
  simpa [String.toList_append] using hall

/-- Expressions that have been printed one by one are read as a list. -/
theorem commaList_spelled {es : List Node}
    (hes : ∀ e ∈ es, ∃ r, e.rendered = .ok r ∧ Spelled A e r) (hne : es ≠ []) :
    ∃ rs text t ts, renderedEach es = .ok rs ∧ rs ≠ [] ∧
      Rendered.commaList 2 rs = .ok text ∧ SpellsList A es (Node.anyOpenIn es) text t ts := by
  induction es with
  | nil => exact absurd rfl hne
  | cons e es ih =>
      obtain ⟨r, hr, hs⟩ := hes e (by simp)
      obtain ⟨p, t, ts, hp, hspells⟩ := hs.within 2 (by decide)
      rcases List.eq_nil_or_concat es with rfl | hmore
      · refine ⟨[r], r.within 2, t, ts, ?_, by simp, commaList_single (hs.textWithin 2), ?_⟩
        · simp [renderedEach, hr, bind, Except.bind, pure, Except.pure]
        · refine ⟨hspells.lexes.mono fun c hc => MayFollow.of_ends hc, ?_, hspells.begins⟩
          rw [Node.anyOpenIn, Node.anyOpenIn, Bool.or_false]
          exact ReadsList.single hspells.reads hp
      · have hcons : es ≠ [] := by
          obtain ⟨_, _, rfl⟩ := hmore
          simp
        obtain ⟨rs, text, u, us, hrs, hrne, htext, hlist⟩ :=
          ih (fun e he => hes e (by simp [he])) hcons
        refine ⟨r :: rs, r.within 2 ++ ", " ++ text, t, ts ++ Token.mark "," :: u :: us, ?_, by simp,
          commaList_cons (hs.textWithin 2) htext hrne, ?_, ?_, ?_⟩
        · simp [renderedEach, hr, hrs, bind, Except.bind, pure, Except.pure]
        · exact lexes_separated (m := ",") (Or.inl rfl) hspells.lexes hlist.lexes
        · rw [Node.anyOpenIn]
          exact ReadsList.cons hspells.reads hp hlist.reads
        · exact (hspells.begins.append _).append _

/-- Several expressions with commas between them. -/
theorem Spelled.sequence {es : List Node} (hes : ∀ e ∈ es, ∃ r, e.rendered = .ok r ∧ Spelled A e r)
    {first second : Node} {more : List Node} (hsome : es = first :: second :: more) :
    ∃ r, (Node.sequence es).rendered = .ok r ∧ Spelled A (.sequence es) r := by
  obtain ⟨r, hr, hs⟩ := hes first (by simp [hsome])
  obtain ⟨p, t, ts, hp, hspells⟩ := hs.within 2 (by decide)
  have hrest : ∀ e ∈ second :: more, ∃ r, e.rendered = .ok r ∧ Spelled A e r := by
    intro e he
    exact hes e (by rw [hsome]; exact List.mem_cons_of_mem _ he)
  obtain ⟨rs, text, u, us, hrs, hne, htext, hlist⟩ := commaList_spelled hrest (by simp)
  refine ⟨⟨r.within 2 ++ ", " ++ text, 1, true⟩, ?_, rfl, rfl, t, ts ++ Token.mark "," :: u :: us, ?_, ?_,
    ?_, ?_⟩
  · rw [Node.rendered, hsome, renderedEach, hr, hrs]
    simp only [bind, Except.bind, pure, Except.pure]
    rw [Precedence.assignment, commaList_cons (hs.textWithin 2) htext hne]
    rfl
  · exact (lexes_separated (m := ",") (Or.inl rfl) hspells.lexes hlist.lexes).mono
      fun c hc => hc.ends (show 1 < 18 by decide)
  · rw [hsome, Node.hasOpenIn, Node.anyOpenIn]
    exact Reads.sequence hspells.reads hp hlist.reads
  · exact (hspells.begins.append _).append _
  · intro h
    exact absurd h (show ¬18 ≤ 1 by decide)

/-- Expressions in brackets. -/
theorem elements_spelled {es : List Node} {a b : String}
    (hes : ∀ e ∈ es, ∃ r, e.rendered = .ok r ∧ Spelled A e r) (hab : (a, b) ∈ brackets) :
    ∃ rs text ts, renderedEach es = .ok rs ∧ Rendered.commaList 2 rs = .ok text ∧
      A.Lexes (a ++ text ++ b).toList (Token.mark a :: (ts ++ [Token.mark b])) Alphabet.anything ∧
      ReadsElements es (Token.mark b) ts := by
  by_cases hne : es = []
  · subst hne
    have hnil : A.Lexes "".toList [] (MayFollow A .absent 0) :=
      Alphabet.Lexes.nil.mono fun _ _ => trivial
    refine ⟨[], "", [], rfl, ?_, lexes_bracketed hab hnil, ReadsElements.nil _⟩
    simp [Rendered.commaList, pure, Except.pure, bind, Except.bind, String.intercalate_nil]
  · obtain ⟨rs, text, t, ts, hrs, -, htext, hlist⟩ := commaList_spelled hes hne
    have hlex : A.Lexes text.toList (t :: ts) (MayFollow A .absent 0) :=
      hlist.lexes.mono fun c hc => hc.ends (by decide)
    have hclose : ∀ p ∈ brackets, Token.mark p.2 ∈ closers ∧ Token.mark p.2 ≠ Token.mark "," ∧
        mayBegin (Token.mark p.2) = false := by decide
    obtain ⟨hcloser, hcomma, hbegin⟩ := hclose _ hab
    refine ⟨rs, text, t :: ts, hrs, htext, lexes_bracketed hab hlex, ?_⟩
    refine ReadsElements.of_list hlist.reads hcloser hcomma ?_
    rintro rfl
    rw [hlist.begins.mayBegin] at hbegin
    simp at hbegin

theorem Spelled.arrayExpression {es : List Node}
    (hes : ∀ e ∈ es, ∃ r, e.rendered = .ok r ∧ Spelled A e r) :
    ∃ r, (Node.arrayExpression es).rendered = .ok r ∧ Spelled A (.arrayExpression es) r := by
  obtain ⟨rs, text, ts, hrs, htext, hlex, hread⟩ :=
    elements_spelled hes (by decide : ("[", "]") ∈ brackets)
  refine ⟨.atom ("[" ++ text ++ "]"), ?_, rfl, rfl, Token.mark "[", ts ++ [Token.mark "]"], ?_, ?_, ?_, ?_⟩
  · rw [Node.rendered, hrs]
    simp only [bind, Except.bind, Rendered.ofElements]
    rw [Precedence.assignment, htext]
    rfl
  · exact hlex.mono fun _ _ => trivial
  · exact Reads.array (show 15 ≤ 20 by decide) hread
  · refine ⟨rfl, ?_, ?_, ?_⟩
    all_goals simp [Rendered.atom, String.toList_append]
  · intro _
    rfl

/-! ### Members and calls -/

/-- An operand with something in brackets behind it. -/
theorem lexes_before_bracket {a b left text : String} {ts us : List Token}
    (hab : (a, b) ∈ brackets) (hl : A.Lexes left.toList ts (MayFollow A e level))
    (h : A.Lexes (a ++ text ++ b).toList us Alphabet.anything) :
    A.Lexes (left ++ (a ++ text ++ b)).toList (ts ++ us) Alphabet.anything := by
  have hall : ∀ p ∈ brackets, p.1.toList ≠ [] ∧ p.1.toList.head?.all isDelimiter = true := by decide
  obtain ⟨hne, hdelimiter⟩ := hall _ hab
  obtain ⟨d, ds, hd⟩ := List.exists_cons_of_ne_nil hne
  rw [hd] at hdelimiter
  rw [String.toList_append]
  refine hl.append h (by simp [String.toList_append, hd]) ?_
  intro c hc
  obtain rfl : d = c := by simpa [String.toList_append, hd] using hc
  exact mayFollow_of_isDelimiter hdelimiter

/-- A name with a point before it. -/
theorem lexes_point_name {name : String} (h : A.IsName name) :
    A.Lexes ("." ++ name).toList [Token.mark ".", Token.word name] A.EndsName := by
  obtain ⟨c, cs, hchars, hc, -⟩ := id h
  have hpoint : Alphabet.EndsMark "." c := by
    refine ⟨?_, ?_⟩
    · rw [(by decide : Alphabet.followers "." = ['.'])]
      intro hdot
      obtain rfl := List.mem_singleton.mp hdot
      have := A.continues_of_begins _ hc
      rw [A.continues_of_not_alphanum (by decide) (by decide)] at this
      simp at this
    · intro _
      rw [Bool.eq_false_iff]
      intro hdigit
      rw [A.not_begins_of_isDigit hdigit] at hc
      simp at hc
  rw [String.toList_append]
  refine (A.lexes_mark (m := ".") (by decide)).append (A.lexes_word h) (by simp [hchars]) ?_
  intro d hd
  rw [hchars] at hd
  obtain rfl := Option.some.inj hd
  exact hpoint

/-- An access to a member by its name, which may be a reserved word. -/
theorem Spelled.member {object : Node} {name : String} {r : Rendered} (h : Spelled A object r)
    (hnumber : ∀ v, object ≠ .numericLiteral v) (hname : A.IsName name) :
    Spelled A (.member object (.identifier (.text name)) false)
      (.ofMember r (.ofName (.text name)) false) := by
  obtain ⟨p, t, ts, hp, hs⟩ := h.within 18 (by decide)
  refine ⟨rfl, rfl, t, ts ++ [Token.mark ".", Token.word name], ?_, ?_, ?_, ?_⟩
  · have hall := hs.lexes.append (lexes_point_name hname) (by simp [String.toList_append]) (by
      intro d hd
      rw [String.toList_append] at hd
      obtain rfl := Option.some.inj hd
      exact ⟨A.continues_of_not_alphanum (by decide) (by decide), fun _ => ⟨hp, hnumber⟩⟩)
    have htext : (Rendered.ofMember r (.ofName (.text name)) false).text.toList =
        (r.within 18).toList ++ ("." ++ name).toList := by
      show (r.within 18 ++ "." ++ name).toList = _
      simp [String.toList_append]
    rw [htext]
    exact hall.mono fun d hd => hd.no_name
  · exact hs.reads.member (hs.operand hp) hp
  · exact (hs.begins.append _).append _
  · intro _
    exact hs.operand hp

/-- An access to a member by a computed key. -/
theorem Spelled.element {object property : Node} {ro rp : Rendered} (ho : Spelled A object ro)
    (hp : Spelled A property rp) :
    Spelled A (.member object property true) (.ofMember ro rp true) := by
  obtain ⟨p, t, ts, hlevel, hs⟩ := ho.within 18 (by decide)
  obtain ⟨q, u, us, -, hsp⟩ := hp.within 1 (by decide)
  have htext : (Rendered.ofMember ro rp true).text =
      ro.within 18 ++ ("[" ++ rp.within 1 ++ "]") := by
    simp [Rendered.ofMember, Precedence.member, Precedence.sequence, String.append_assoc]
  refine ⟨rfl, rfl, t, ts ++ Token.mark "[" :: (u :: us ++ [Token.mark "]"]), ?_, ?_, ?_, ?_⟩
  · rw [htext]
    have hinner := lexes_bracketed (by decide : ("[", "]") ∈ brackets) hsp.lexes
    exact (lexes_before_bracket (by decide) hs.lexes hinner).mono fun _ _ => trivial
  · exact hs.reads.element (hs.operand hlevel) hlevel hsp.reads
  · rw [htext]
    exact hs.begins.append _
  · intro _
    exact hs.operand hlevel

/-- A call. -/
theorem Spelled.call {callee : Node} {arguments : List Node} {r : Rendered}
    (h : Spelled A callee r) (hes : ∀ e ∈ arguments, ∃ r, e.rendered = .ok r ∧ Spelled A e r) :
    ∃ rs r', renderedEach arguments = .ok rs ∧ Rendered.ofCall r rs = .ok r' ∧
      Spelled A (.call callee arguments) r' := by
  obtain ⟨p, t, ts, hlevel, hs⟩ := h.within 18 (by decide)
  obtain ⟨rs, text, us, hrs, htext, hlex, hread⟩ :=
    elements_spelled hes (by decide : ("(", ")") ∈ brackets)
  refine ⟨rs, ⟨r.within 18 ++ ("(" ++ text ++ ")"), 18, true⟩, hrs, ?_, rfl, rfl, t,
    ts ++ Token.mark "(" :: (us ++ [Token.mark ")"]), ?_, ?_, ?_, ?_⟩
  · rw [Rendered.ofCall, Precedence.assignment, htext]
    simp [bind, Except.bind, pure, Except.pure, Precedence.member, String.append_assoc]
  · exact (lexes_before_bracket (by decide) hs.lexes hlex).mono fun _ _ => trivial
  · exact hs.reads.call (hs.operand hlevel) hlevel hread
  · exact hs.begins.append _
  · intro _
    exact hs.operand hlevel

/-! ### Objects -/

/-- The key of a property as it is written. -/
def keyText (r : Rendered) (computed : Bool) : String :=
  if computed then "[" ++ r.within 2 ++ "]" else r.within 2

/-- What is written for the key of a property is read as that key. -/
structure SpellsKey (A : Alphabet) (key : Node) (computed : Bool) (text : String) (t : Token)
    (ts : List Token) : Prop where
  lexes : A.Lexes text.toList (t :: ts) A.EndsOperand
  reads : ReadsKey key computed (t :: ts)
  inner : t ≠ Token.mark "\x7d"

theorem key_spelled {p : Property} (hw : p.key.isWritable = true)
    (hkey : p.computed = true → ∃ r, p.key.rendered = .ok r ∧ Spelled A p.key r)
    (hplain : p.computed = false → IsPlainKey A p.key) :
    ∃ r t ts, p.key.rendered = .ok r ∧
      SpellsKey A p.key p.computed (keyText r p.computed) t ts := by
  obtain ⟨key, value, computed⟩ := p
  cases computed with
  | true =>
      obtain ⟨r, hr, hs⟩ := hkey rfl
      obtain ⟨p, t, ts, hp, hspells⟩ := hs.within 2 (by decide)
      refine ⟨r, Token.mark "[", t :: ts ++ [Token.mark "]"], hr, ?_, ?_, by decide⟩
      · exact (lexes_bracketed (by decide : ("[", "]") ∈ brackets) hspells.lexes).mono
          fun _ _ => trivial
      · exact ReadsKey.computed hspells.reads hp
  | false =>
      cases hplain rfl with
      | name h =>
          refine ⟨_, _, [], rfl, (A.lexes_word h).mono fun c hc => hc.1, ?_, by simp⟩
          intro rest
          rw [List.singleton_append, parse_eq .propertyKey, rule, Grammar.propertyKey]
          rfl
      | text s =>
          refine ⟨_, _, [], rfl, (A.lexes_quote s).mono fun _ _ => trivial, ?_, by simp⟩
          intro rest
          rw [List.singleton_append, parse_eq .propertyKey, rule, Grammar.propertyKey]
          rfl
      | number n =>
          have hlex : A.Lexes (keyText (.ofNumber (.number (.int n))) false).toList [.number n 0]
              A.EndsOperand := by
            rw [ofNumber_nat]
            exact A.lexes_number n
          refine ⟨_, _, [], rendered_nat hw, hlex, ?_, by simp⟩
          intro rest
          rw [List.singleton_append, parse_eq .propertyKey, rule, Grammar.propertyKey]
          rfl

/-- The properties of an object as they are written. -/
theorem properties_spelled {ps : List Property} (hne : ps ≠ [])
    (hw : ∀ p ∈ ps, p.key.isWritable = true)
    (hvalues : ∀ p ∈ ps, ∃ r, p.value.rendered = .ok r ∧ Spelled A p.value r)
    (hkeys : ∀ p ∈ ps, p.computed = true → ∃ r, p.key.rendered = .ok r ∧ Spelled A p.key r)
    (hplain : ∀ p ∈ ps, p.computed = false → IsPlainKey A p.key) :
    ∃ texts t ts, propertyTexts (ps.map Property.toNode) = .ok texts ∧ texts ≠ [] ∧
      A.Lexes (", ".intercalate texts).toList (t :: ts) A.EndsOperand ∧
      ReadsProperties (ps.map Property.toNode) (t :: ts) ∧ t ≠ Token.mark "\x7d" := by
  induction ps with
  | nil => exact absurd rfl hne
  | cons p ps ih =>
      obtain ⟨rk, t, ts, hrk, hkey⟩ :=
        key_spelled (hw p (by simp)) (hkeys p (by simp)) (hplain p (by simp))
      obtain ⟨rv, hrv, hv⟩ := hvalues p (by simp)
      obtain ⟨q, u, us, hq, hvalue⟩ := hv.within 2 (by decide)
      have htext : Rendered.propertyText rk rv p.computed =
          keyText rk p.computed ++ (":" ++ " ") ++ rv.within 2 := rfl
      have hproperty : A.Lexes (Rendered.propertyText rk rv p.computed).toList
          (t :: ts ++ Token.mark ":" :: u :: us) A.EndsOperand := by
        have hfirst : A.Lexes (keyText rk p.computed).toList (t :: ts) (MayFollow A .absent 0) :=
          hkey.lexes.mono fun c hc => hc.ends (by decide)
        rw [htext]
        exact (lexes_separated (Or.inr rfl) hfirst hvalue.lexes).mono
          fun c hc => MayFollow.of_ends hc
      by_cases hmore : ps = []
      · subst hmore
        refine ⟨[Rendered.propertyText rk rv p.computed], t, ts ++ Token.mark ":" :: u :: us, ?_,
          by simp, ?_, ?_, hkey.inner⟩
        · simp [propertyTexts, Property.toNode, hrk, hrv, bind, Except.bind, pure, Except.pure]
        · rw [String.intercalate_singleton]
          exact hproperty
        · exact ReadsProperties.single hkey.reads hvalue.reads hq
      · obtain ⟨texts, v, vs, htexts, hsome, hlex, hread, -⟩ := ih hmore
          (fun p hp => hw p (by simp [hp])) (fun p hp => hvalues p (by simp [hp]))
          (fun p hp => hkeys p (by simp [hp])) (fun p hp => hplain p (by simp [hp]))
        refine ⟨Rendered.propertyText rk rv p.computed :: texts, t,
          ts ++ Token.mark ":" :: (u :: us ++ Token.mark "," :: v :: vs), ?_, by simp, ?_, ?_, hkey.inner⟩
        · simp [propertyTexts, Property.toNode, hrk, hrv, bind, Except.bind, pure, Except.pure,
            htexts]
        · have hfirst : A.Lexes (Rendered.propertyText rk rv p.computed).toList
              (t :: ts ++ Token.mark ":" :: u :: us) (MayFollow A .absent 0) :=
            hproperty.mono fun c hc => hc.ends (by decide)
          rw [String.intercalate_cons_of_ne_nil hsome]
          have hall := lexes_separated (m := ",") (Or.inl rfl) hfirst hlex
          simpa using hall
        · exact ReadsProperties.cons hkey.reads hvalue.reads hq hread

theorem Spelled.objectExpression {ps : List Property} (hw : ∀ p ∈ ps, p.key.isWritable = true)
    (hvalues : ∀ p ∈ ps, ∃ r, p.value.rendered = .ok r ∧ Spelled A p.value r)
    (hkeys : ∀ p ∈ ps, p.computed = true → ∃ r, p.key.rendered = .ok r ∧ Spelled A p.key r)
    (hplain : ∀ p ∈ ps, p.computed = false → IsPlainKey A p.key) :
    ∃ r, (Node.objectExpression (ps.map Property.toNode)).rendered = .ok r ∧
      Spelled A (.objectExpression (ps.map Property.toNode)) r := by
  have hopen : A.Lexes ['\x7b'] [Token.mark "\x7b"] Alphabet.anything :=
    A.lexes_solitary (m := "\x7b") (by decide)
  have hclose : A.Lexes ['\x7d'] [Token.mark "\x7d"] Alphabet.anything :=
    A.lexes_solitary (m := "\x7d") (by decide)
  have hblank : A.Lexes [' '] [] Alphabet.anything := A.lexes_blank (by decide)
  by_cases hne : ps = []
  · subst hne
    refine ⟨.atom "\x7b\x7d", rfl, rfl, rfl, Token.mark "\x7b", [Token.mark "\x7d"], ?_, ?_, ?_, ?_⟩
    · exact (hopen.append_any hclose).mono fun _ _ => trivial
    · have hread : Reads (.objectExpression []) 20 false
          (Token.mark "\x7b" :: ([] ++ [Token.mark "\x7d"])) :=
        Reads.object (by decide) (by simp) (fun _ => rfl) (by simp)
      exact hread
    · exact ⟨rfl, by decide, by decide, fun _ => rfl⟩
    · intro _
      rfl
  · obtain ⟨texts, t, ts, htexts, hsome, hlex, hread, hinner⟩ :=
      properties_spelled hne hw hvalues hkeys hplain
    have hends := hlex.append (hblank.append_any hclose) (by simp) (by
      intro c hc
      obtain rfl := Option.some.inj hc
      exact endsOperand_of_isDelimiter (by decide))
    have hall := hopen.append_any (hblank.append_any hends)
    refine ⟨.ofProperties texts, ?_, rfl, rfl, Token.mark "\x7b", t :: ts ++ [Token.mark "\x7d"], ?_, ?_, ?_,
      ?_⟩
    · rw [Node.rendered, htexts]
      rfl
    · have htext : (Rendered.ofProperties texts).text.toList =
          ['\x7b'] ++ ([' '] ++ ((", ".intercalate texts).toList ++ ([' '] ++ ['\x7d']))) := by
        simp [Rendered.ofProperties, Rendered.atom, hsome, String.toList_append]
      rw [htext]
      exact hall.mono fun _ _ => trivial
    · exact Reads.object (show 15 ≤ 20 by decide) (by simpa using hinner) (by simp) (fun _ => hread)
    · have htext : (Rendered.ofProperties texts).text.toList.head? = some '\x7b' := by
        simp [Rendered.ofProperties, Rendered.atom, hsome, String.toList_append]
      refine ⟨rfl, ?_, ?_, fun _ => htext⟩
      · intro hnil
        rw [hnil] at htext
        simp at htext
      · rw [htext]
        decide
    · intro _
      rfl

/-! ### Every expression -/

/-- **A legal expression whose numbers are short enough is printed, and what is printed is read as
the expression.** -/
theorem rendered_spelled (h : IsExpression A e) (hw : e.isWritable = true) :
    ∃ r, e.rendered = .ok r ∧ Spelled A e r := by
  induction h with
  | identifier h => exact ⟨_, rfl, Spelled.identifier h⟩
  | stringLiteral s => exact ⟨_, rfl, Spelled.stringLiteral s⟩
  | numericLiteral n => exact ⟨_, rendered_nat hw, Spelled.numericLiteral n⟩
  | booleanLiteral b =>
      refine ⟨_, rfl, ?_⟩
      cases b with
      | true => exact Spelled.word rfl rfl (by decide) rfl (by decide) (by decide)
      | false => exact Spelled.word rfl rfl (by decide) rfl (by decide) (by decide)
  | nullLiteral =>
      exact ⟨_, rfl, Spelled.word rfl rfl (by decide) rfl (by decide) (by decide)⟩
  | arrayExpression _ ih =>
      rw [Node.isWritable, eachWritable_eq_true] at hw
      exact Spelled.arrayExpression fun e he => ih e he (hw e he)
  | objectExpression _ _ hplain ihvalues ihkeys =>
      rw [Node.isWritable, eachWritable_eq_true, List.forall_mem_map] at hw
      simp only [Property.toNode, Node.isWritable, Bool.and_eq_true] at hw
      exact Spelled.objectExpression (fun p hp => (hw p hp).1)
        (fun p hp => ihvalues p hp (hw p hp).2)
        (fun p hp hc => ihkeys p hp hc (hw p hp).1) hplain
  | member _ hnumber hname ih =>
      rw [Node.isWritable, Bool.and_eq_true] at hw
      obtain ⟨r, hr, hs⟩ := ih hw.1
      refine ⟨_, ?_, hs.member hnumber hname⟩
      rw [Node.rendered, hr]
      rfl
  | element _ _ iho ihp =>
      rw [Node.isWritable, Bool.and_eq_true] at hw
      obtain ⟨ro, hro, ho⟩ := iho hw.1
      obtain ⟨rp, hrp, hp⟩ := ihp hw.2
      refine ⟨_, ?_, ho.element hp⟩
      rw [Node.rendered, hro, hrp]
      rfl
  | call _ _ ihc iha =>
      rw [Node.isWritable, Bool.and_eq_true, eachWritable_eq_true] at hw
      obtain ⟨rc, hrc, hc⟩ := ihc hw.1
      obtain ⟨rs, r, hrs, hr, hs⟩ := hc.call fun e he => iha e he (hw.2 e he)
      refine ⟨r, ?_, hs⟩
      rw [Node.rendered, hrc, hrs]
      exact hr
  | @update operator argument before hop hplace _ ih =>
      rw [Node.isWritable] at hw
      obtain ⟨r, hr, hs⟩ := ih hw
      obtain ⟨r', hr', hs'⟩ := Spelled.ofUpdate before hop hplace hs
      refine ⟨r', ?_, hs'⟩
      rw [Node.rendered, hr]
      exact hr'
  | unary hop _ ih =>
      rw [Node.isWritable] at hw
      obtain ⟨r, hr, hs⟩ := ih hw
      obtain ⟨r', hr', hs'⟩ := Spelled.ofUnary hop hs
      refine ⟨r', ?_, hs'⟩
      rw [Node.rendered, hr]
      exact hr'
  | binary hop hbinary _ _ ihl ihr =>
      rw [Node.isWritable, Bool.and_eq_true] at hw
      obtain ⟨rl, hrl, hl⟩ := ihl hw.1
      obtain ⟨rr, hrr, hr⟩ := ihr hw.2
      refine ⟨_, ?_, Spelled.ofBinary hop hl hr ?_ ?_ ?_⟩
      · rw [Node.rendered, hrl, hrr]
        rfl
      · exact (isOperator_of_mem hop).2.1
      · rw [joined, if_neg (by simpa using hbinary)]
      · rw [Node.hasOpenIn, (isOperator_of_mem hop).2.1]
        rfl
  | @logical operator left right hop _ _ ihl ihr =>
      rw [Node.isWritable, Bool.and_eq_true] at hw
      obtain ⟨rl, hrl, hl⟩ := ihl hw.1
      obtain ⟨rr, hrr, hr⟩ := ihr hw.2
      have htable : ∀ s ∈ logicalOperators, ∃ level, (s, level) ∈ Precedence.table ∧ s ≠ "in" := by
        intro s hs
        rcases (by simpa [logicalOperators] using hs : s = "||" ∨ s = "&&") with rfl | rfl
        · exact ⟨4, by decide, by decide⟩
        · exact ⟨5, by decide, by decide⟩
      obtain ⟨level, hmem, hin⟩ := htable operator hop
      refine ⟨_, ?_, Spelled.ofBinary hmem hl hr ?_ ?_ ?_⟩
      · rw [Node.rendered, hrl, hrr]
        rfl
      · exact (isOperator_of_mem hmem).2.1
      · rw [joined, if_pos (by simpa using hop)]
      · have hne : (operator == "in") = false := by simpa using hin
        rw [Node.hasOpenIn, (isOperator_of_mem hmem).2.1, hne, Bool.false_or]
  | conditional _ _ _ iht ihc iha =>
      rw [Node.isWritable, Bool.and_eq_true, Bool.and_eq_true] at hw
      obtain ⟨rt, hrt, ht⟩ := iht hw.1.1
      obtain ⟨rc, hrc, hc⟩ := ihc hw.1.2
      obtain ⟨ra, hra, ha⟩ := iha hw.2
      refine ⟨_, ?_, Spelled.ofConditional ht hc ha⟩
      rw [Node.rendered, hrt, hrc, hra]
      rfl
  | assignment hop hplace _ _ ihl ihr =>
      rw [Node.isWritable, Bool.and_eq_true] at hw
      obtain ⟨rl, hrl, hl⟩ := ihl hw.1
      obtain ⟨rr, hrr, hr⟩ := ihr hw.2
      refine ⟨_, ?_, Spelled.ofAssignment hop hplace hl hr⟩
      rw [Node.rendered, hrl, hrr]
      rfl
  | @sequence first second es _ _ _ ihf ihs ihe =>
      rw [Node.isWritable, eachWritable_eq_true] at hw
      refine Spelled.sequence ?_ rfl
      intro e he
      have hwritable := hw e he
      rcases List.mem_cons.mp he with rfl | he
      · exact ihf hwritable
      rcases List.mem_cons.mp he with rfl | he
      · exact ihs hwritable
      · exact ihe e he hwritable

end PhpMigration.JavaScript
