/-
Expressions that lack a part.

A frame is an expression without one of its parts, and frames nest.  What is printed for an
expression in a frame is the text of that expression, maybe in parentheses, between a text before and
a text behind it.  Both are read on their own, whatever the expression is (`Setting`): the text
behind does not depend on the expression at all, and the text before it only in the blank that keeps
two signs apart.  A frame in a frame is such a frame again (`Setting.comp`), so it is enough to look at
one frame at a time.

The text behind begins with a mark that goes on with no operand (`Closes`), with one exception:
behind the object of an access by name stands a point.
-/
import PhpMigration.Proofs.JavaScript.Head

namespace PhpMigration.JavaScript

open Lexer Grammar

variable {A : Alphabet}

/-! ### Frames -/

/-- Two operands of an operator. -/
def joint (logical : Bool) (operator : String) (left right : Node) : Node :=
  if logical then .logical (.text operator) left right else .binary (.text operator) left right

/-- An expression without one of its parts. -/
inductive Frame where
  | unary (operator : String)
  | update (operator : String) (before : Bool)
  | left (logical : Bool) (operator : String) (right : Node)
  | right (logical : Bool) (operator : String) (left : Node)
  | test (consequent alternate : Node)
  | consequent (test alternate : Node)
  | alternate (test consequent : Node)
  | target (operator : String) (value : Node)
  | assigned (operator : String) (target : Node)
  | operand (before after : List Node)
  | callee (arguments : List Node)
  | argument (callee : Node) (before after : List Node)
  /-- The object of an access by name. -/
  | object (name : String)
  /-- The object of an access by a computed key, and the key. -/
  | indexed (index : Node)
  | index (object : Node)
  | element (before after : List Node)
  /-- The key of a property of an object, and its value. -/
  | key (computed : Bool) (value : Node) (before after : List Property)
  | value (computed : Bool) (key : Node) (before after : List Property)

namespace Frame

/-- The expression with the part that it lacks. -/
def fill : Frame → Node → Node
  | unary operator, e => .unary (.text operator) e
  | update operator before, e => .update (.text operator) e before
  | left logical operator other, e => joint logical operator e other
  | right logical operator other, e => joint logical operator other e
  | test first second, e => .conditional e first second
  | consequent first second, e => .conditional first e second
  | alternate first second, e => .conditional first second e
  | target operator other, e => .assignment (.text operator) e other
  | assigned operator other, e => .assignment (.text operator) other e
  | operand before after, e => .sequence (before ++ e :: after)
  | callee arguments, e => .call e arguments
  | argument other before after, e => .call other (before ++ e :: after)
  | object name, e => .member e (.identifier (.text name)) false
  | indexed other, e => .member e other true
  | index other, e => .member other e true
  | element before after, e => .arrayExpression (before ++ e :: after)
  | key computed other before after, e =>
    .objectExpression (before.map Property.toNode ++ .objectProperty e other computed ::
      after.map Property.toNode)
  | value computed other before after, e =>
    .objectExpression (before.map Property.toNode ++ .objectProperty other e computed ::
      after.map Property.toNode)

/-- How tightly the part has to bind. -/
def least : Frame → Nat
  | unary _ => Precedence.unary
  | update _ before => if before then Precedence.unary else Precedence.member
  | left _ operator _ => Precedence.ofBinary (.text operator)
  | right _ operator _ => Precedence.ofBinary (.text operator) + 1
  | test .. => Precedence.conditional + 1
  | target .. | callee _ | object _ | indexed _ => Precedence.member
  | index _ => Precedence.sequence
  | _ => Precedence.assignment

/-- How tightly the expression binds. -/
def level : Frame → Nat
  | unary _ => Precedence.unary
  | update _ before => if before then Precedence.unary else Precedence.postfixed
  | left _ operator _ | right _ operator _ => Precedence.ofBinary (.text operator)
  | test .. | consequent .. | alternate .. => Precedence.conditional
  | target .. | assigned .. => Precedence.assignment
  | operand .. => Precedence.sequence
  | callee _ | argument .. | object _ | indexed _ | index _ => Precedence.member
  | element .. | key .. | value .. => Precedence.primary

attribute [grind =] fill least level

/-- Behind the part stands a point. -/
def isPointed : Frame → Bool
  | object _ => true
  | _ => false

end Frame

/-! ### The other parts -/

/-- The text has tokens, if nothing behind it goes on with it. -/
def HasTokens (A : Alphabet) (text : String) : Prop := ∃ ts, A.Lexes text.toList ts A.EndsOperand

/-- What has been printed can be an operand: it is a text, and no assignment begins with it. -/
structure Rendered.IsOperand (r : Rendered) : Prop where
  isText : r.isText = true
  binds : 1 ≤ r.precedence
  not_empty : r.text.toList ≠ []
  not_equals : r.text.toList.head? ≠ some '='

/-- The expression is printed, and what is printed is read by itself. -/
def IsPiece (A : Alphabet) (e : Node) : Prop :=
  ∃ r, e.rendered = .ok r ∧ r.IsOperand ∧ HasTokens A r.text

/-- The operator is a word or a mark. -/
def IsSymbol (operator : String) : Prop := Alphabet.isLetters operator = true ∨ operator ∈ marks

namespace Frame

/-- The parts that are there can be read, and the operator can stand where it stands. -/
def IsSound (A : Alphabet) : Frame → Prop
  | unary operator => operator ∈ unaryOperators
  | update operator _ => operator ∈ updateOperators
  | left _ operator e | right _ operator e | target operator e | assigned operator e =>
    IsSymbol operator ∧ IsPiece A e
  | test e e' | consequent e e' | alternate e e' => IsPiece A e ∧ IsPiece A e'
  | callee es => ∀ e ∈ es, IsPiece A e
  | operand before after | element before after => ∀ e ∈ before ++ after, IsPiece A e
  | argument e before after => IsPiece A e ∧ ∀ e' ∈ before ++ after, IsPiece A e'
  | object name => A.IsName name
  | indexed e | index e => IsPiece A e
  | key _ e before after | value _ e before after =>
    IsPiece A e ∧ ∀ p ∈ before ++ after, IsPiece A p.key ∧ IsPiece A p.value

end Frame

theorem HasTokens.lexes_parenthesized {text : String} (h : HasTokens A text) {a b : String}
    (hab : (a, b) ∈ brackets) :
    ∃ ts, A.Lexes (a ++ text ++ b).toList ts Alphabet.anything := by
  obtain ⟨ts, hts⟩ := h
  have hmay : A.Lexes text.toList ts (MayFollow A .absent 0) :=
    hts.mono fun c hc => hc.ends (by decide)
  exact ⟨_, lexes_bracketed hab hmay⟩

theorem HasTokens.within {r : Rendered} (h : HasTokens A r.text) (least : Nat) :
    HasTokens A (r.within least) := by
  unfold Rendered.within
  split
  · obtain ⟨ts, hts⟩ := h.lexes_parenthesized (by decide : ("(", ")") ∈ brackets)
    exact ⟨ts, hts.mono fun _ _ => trivial⟩
  · exact h

namespace Rendered.IsOperand

variable {r : Rendered}

theorem within_ne_nil (h : r.IsOperand) (least : Nat) : (r.within least).toList ≠ [] := by
  unfold within
  split
  · simp [String.toList_append]
  · exact h.not_empty

theorem within_ne_equals (h : r.IsOperand) (least : Nat) :
    (r.within least).toList.head? ≠ some '=' := by
  unfold within
  split
  · simp [String.toList_append]
  · exact h.not_equals

/-- No assignment begins with the operand, whatever stands behind it. -/
theorem head?_within_append (h : r.IsOperand) (least : Nat) (more : String) :
    (r.within least ++ more).toList.head? ≠ some '=' := by
  obtain ⟨c, cs, hcs⟩ := List.exists_cons_of_ne_nil (h.within_ne_nil least)
  have hne := h.within_ne_equals least
  rw [hcs] at hne
  simpa [String.toList_append, hcs] using hne

theorem textWithin (h : r.IsOperand) (least : Nat) : r.textWithin least = .ok (r.within least) := by
  rw [Rendered.textWithin, if_pos h.isText]
  rfl

end Rendered.IsOperand

/-- **Every legal expression is a piece**, if its numbers are short enough. -/
theorem isPiece_of_isExpression {e : Node} (h : IsExpression A e) (hw : e.isWritable = true) :
    IsPiece A e := by
  obtain ⟨r, hr, hs⟩ := rendered_spelled h hw
  obtain ⟨t, ts, hspells⟩ := hs.spells
  refine ⟨r, hr, ⟨hs.isText, ?_, hspells.begins.not_empty, hspells.begins.not_equals⟩, t :: ts, ?_⟩
  · rw [hs.precedence]
    exact precedence_pos h
  · exact hspells.lexes.mono fun c hc => MayFollow.of_ends hc

/-! ### What stands behind a part -/

/-- What the text behind a part begins with. -/
def boundaries : List String := [" ", ",", ":", "(", ")", "[", "]", "++", "--"]

/-- The text goes on with no operand before it, unless it begins with a point. -/
def Closes (pointed : Bool) (cs : List Char) : Prop :=
  cs = [] ∨ (∃ m ∈ boundaries, m.toList <+: cs) ∨ pointed = true ∧ ['.'] <+: cs

namespace Closes

variable {pointed : Bool} {cs : List Char}

theorem of_boundary {m : String} (hm : m ∈ boundaries) (more : List Char) :
    Closes pointed (m.toList ++ more) :=
  .inr (.inl ⟨m, hm, List.prefix_append _ _⟩)

theorem of_text {m : String} (hm : m ∈ boundaries) (more : String) :
    Closes pointed (m ++ more).toList := by
  rw [String.toList_append]
  exact of_boundary hm more.toList

theorem append (h : Closes pointed cs) (hne : cs ≠ []) (more : List Char) :
    Closes pointed (cs ++ more) := by
  rcases h with hnil | ⟨m, hm, hprefix⟩ | ⟨hpointed, hprefix⟩
  · exact absurd hnil hne
  · exact .inr (.inl ⟨m, hm, hprefix.trans (List.prefix_append _ _)⟩)
  · exact .inr (.inr ⟨hpointed, hprefix.trans (List.prefix_append _ _)⟩)

/-- The first character ends a name, and it is no point unless one is expected. -/
theorem ends (h : Closes pointed cs) {c : Char} (hc : cs.head? = some c) :
    A.continues c = false ∧ (c = '.' → pointed = true) := by
  have hall : ∀ m ∈ boundaries, m.toList ≠ [] ∧ m.toList.head?.all isDelimiter = true := by decide
  rcases h with rfl | ⟨m, hm, more, rfl⟩ | ⟨hpointed, more, rfl⟩
  · cases hc
  · obtain ⟨hne, hdelimiter⟩ := hall m hm
    obtain ⟨d, ds, hd⟩ := List.exists_cons_of_ne_nil hne
    rw [hd] at hc hdelimiter
    obtain rfl := Option.some.inj hc
    have hends := endsOperand_of_isDelimiter (A := A) hdelimiter
    exact ⟨hends.1, fun hdot => absurd hdot hends.2⟩
  · obtain rfl := Option.some.inj hc
    exact ⟨A.continues_of_not_alphanum (by decide) (by decide), fun _ => hpointed⟩

theorem endsOperand (h : Closes false cs) {c : Char} (hc : cs.head? = some c) :
    A.EndsOperand c :=
  ⟨(h.ends hc).1, fun hdot => absurd ((h.ends (A := A) hc).2 hdot) (by decide)⟩

theorem follows (h : Closes pointed cs) {level : Nat} (hpointed : pointed = true → 18 ≤ level)
    {c : Char} (hc : cs.head? = some c) : MayFollow A .absent level c where
  no_name := (h.ends hc).1
  no_point hdot := ⟨hpointed ((h.ends (A := A) hc).2 hdot), nofun⟩

end Closes

/-! ### Texts around a part -/

theorem Alphabet.Lexes.nil_tokens {ts : List Token} {next : Char → Prop} (h : A.Lexes [] ts next) :
    ts = [] := by
  have hlex := h [] nofun
  simp [Alphabet.lex] at hlex
  exact hlex

/-- Two pieces, of which the second one may be empty. -/
theorem Alphabet.Lexes.followed {cs ds : List Char} {ts us : List Token} {next next' : Char → Prop}
    (h : A.Lexes cs ts next) (h' : A.Lexes ds us next')
    (hhead : ∀ c, ds.head? = some c → next c) (hnil : ds = [] → ∀ c, next' c → next c) :
    A.Lexes (cs ++ ds) (ts ++ us) next' := by
  by_cases hne : ds = []
  · subst hne
    rw [h'.nil_tokens, List.append_nil, List.append_nil]
    exact h.mono (hnil rfl)
  · exact h.append h' hne hhead

/-- What is printed for an expression with a part consists of the text of that part, in parentheses
if it does not bind as tightly as at least `least`, and of a text before and one behind it; both are
read on their own. -/
structure Setting (A : Alphabet) (fill : Node → Node) (least level : Nat) (pointed : Bool)
    (before after : List Token) (trail : List Char) : Prop where
  binds : 1 ≤ level
  behind : A.Lexes trail after (MayFollow A .absent level)
  closes : Closes pointed trail
  /-- An expression that ends with its part is no operand of an access. -/
  open_end : trail = [] → level < 18
  fills : ∀ {e r}, e.rendered = .ok r → r.IsOperand → ∃ lead s, (fill e).rendered = .ok s ∧
    s.precedence = level ∧ s.IsOperand ∧
    s.text.toList = lead ++ (r.within least).toList ++ trail ∧
    A.Lexes lead before fun c => (r.within least).toList.head? = some c

namespace Setting

variable {fill fill' : Node → Node} {least least' level level' : Nat} {pointed pointed' : Bool}
  {before before' after after' : List Token} {trail trail' : List Char}

/-- The texts around the part are the same for all expressions. -/
theorem of_fixed (lead trail : String) (hbinds : 1 ≤ level)
    (hlead : A.Lexes lead.toList before Alphabet.anything) (hequals : lead.toList.head? ≠ some '=')
    (htrail : A.Lexes trail.toList after (MayFollow A .absent level))
    (hcloses : Closes pointed trail.toList) (hopen : trail.toList = [] → level < 18)
    (hfill : ∀ {e r}, e.rendered = .ok r → r.IsOperand →
      (fill e).rendered = .ok ⟨lead ++ r.within least ++ trail, level, true⟩) :
    Setting A fill least level pointed before after trail.toList where
  binds := hbinds
  behind := htrail
  closes := hcloses
  open_end := hopen
  fills := by
    intro e r he hr
    have htext : (lead ++ r.within least ++ trail).toList =
        lead.toList ++ (r.within least).toList ++ trail.toList := by
      rw [String.toList_append, String.toList_append]
    refine ⟨lead.toList, _, hfill he hr, rfl, ⟨rfl, hbinds, ?_, ?_⟩, htext, hlead.mono fun _ _ => trivial⟩
    · rw [htext]
      simp [hr.within_ne_nil least]
    · rw [htext, List.append_assoc]
      by_cases hnil : lead.toList = []
      · obtain ⟨c, cs, hcs⟩ := List.exists_cons_of_ne_nil (hr.within_ne_nil least)
        have hne := hr.within_ne_equals least
        rw [hcs] at hne
        simpa [hnil, hcs] using hne
      · obtain ⟨c, cs, hcs⟩ := List.exists_cons_of_ne_nil hnil
        rw [hcs] at hequals
        simpa [hcs] using hequals

/-- **A frame in a frame is a frame.** -/
theorem comp (h : Setting A fill least level pointed before after trail)
    (h' : Setting A fill' least' level' pointed' before' after' trail')
    (hpointed : pointed' = true → 18 ≤ least') :
    ∃ b a t, Setting A (fill' ∘ fill) least level' pointed b a t := by
  by_cases hgroup : level < least'
  · -- The inner expression is put in parentheses.
    have hopen : A.Lexes ['('] [Token.mark "("] Alphabet.anything :=
      A.lexes_solitary (m := "(") (by decide)
    have hclose : A.Lexes [')'] [Token.mark ")"] Alphabet.anything :=
      A.lexes_solitary (m := ")") (by decide)
    refine ⟨before' ++ ([Token.mark "("] ++ before), after ++ ([Token.mark ")"] ++ after'),
      trail ++ ([')'] ++ trail'), h'.binds, ?_, ?_, by simp, ?_⟩
    · refine h.behind.append (hclose.append_any h'.behind) (by simp) ?_
      intro c hc
      obtain rfl := Option.some.inj hc
      exact mayFollow_of_isDelimiter (by decide)
    · by_cases hnil : trail = []
      · rw [hnil]
        exact .of_boundary (m := ")") (by decide) trail'
      · exact h.closes.append hnil _
    · intro e r he hr
      obtain ⟨lead, s, hs, hlevel, hop, htext, hlead⟩ := h.fills he hr
      obtain ⟨lead', s', hs', hlevel', hop', htext', hlead'⟩ := h'.fills hs hop
      have hwithin : (s.within least').toList = '(' :: (s.text.toList ++ [')']) := by
        rw [Rendered.within, if_pos (by omega)]
        simp [String.toList_append]
      refine ⟨lead' ++ (['('] ++ lead), s', hs', hlevel', hop', ?_, ?_⟩
      · rw [htext', hwithin, htext]
        simp
      · refine hlead'.append (hopen.append_any hlead) (by simp) ?_
        intro c hc
        rw [hwithin]
        exact hc
  · refine ⟨before' ++ before, after ++ after', trail ++ trail', h'.binds, ?_, ?_, ?_, ?_⟩
    · refine h.behind.followed h'.behind ?_ ?_
      · intro c hc
        exact h'.closes.follows (fun hp => by have := hpointed hp; omega) hc
      · intro hnil c hc
        exact .of_ends (hc.ends (h'.open_end hnil))
    · by_cases hnil : trail = []
      · have hlow := h.open_end hnil
        rw [hnil, List.nil_append]
        rcases h'.closes with hnil' | hboundary | ⟨hp, -⟩
        · exact .inl hnil'
        · exact .inr (.inl hboundary)
        · have := hpointed hp
          omega
      · exact h.closes.append hnil _
    · intro hnil
      exact h'.open_end (List.append_eq_nil_iff.mp hnil).2
    · intro e r he hr
      obtain ⟨lead, s, hs, hlevel, hop, htext, hlead⟩ := h.fills he hr
      obtain ⟨lead', s', hs', hlevel', hop', htext', hlead'⟩ := h'.fills hs hop
      have hwithin : (s.within least').toList = lead ++ (r.within least).toList ++ trail := by
        rw [Rendered.within, if_neg (by omega), htext]
      refine ⟨lead' ++ lead, s', hs', hlevel', hop', ?_, ?_⟩
      · rw [htext', hwithin]
        simp
      · refine hlead'.followed hlead ?_ ?_
        · intro c hc
          rw [hwithin, List.append_assoc, List.head?_append, hc]
          rfl
        · intro hnil c hc
          rw [hwithin, hnil, List.nil_append, List.head?_append, hc]
          rfl

end Setting

/-! ### Operators -/

theorem IsSymbol.lexes {operator : String} (h : IsSymbol operator) :
    A.Lexes (" " ++ operator ++ " ").toList [operatorToken operator] Alphabet.anything := by
  have hblank : A.Lexes [' '] [] Alphabet.anything := A.lexes_blank (by decide)
  have hbehind := (lexes_operator h).append hblank (by simp) fun c hc => (Option.some.inj hc).symm
  simpa [String.toList_append] using hblank.append_any hbehind

namespace HasTokens

variable {text text' operator : String}

/-- A text with an operator behind it. -/
theorem lexes_before (h : HasTokens A text) (hoperator : IsSymbol operator) :
    ∃ ts, A.Lexes (text ++ (" " ++ operator ++ " ")).toList ts Alphabet.anything := by
  obtain ⟨ts, hts⟩ := h
  refine ⟨ts ++ [operatorToken operator], ?_⟩
  rw [String.toList_append]
  refine hts.append hoperator.lexes (by simp [String.toList_append]) ?_
  intro c hc
  obtain rfl : ' ' = c := by simpa [String.toList_append] using hc
  exact endsOperand_of_isDelimiter (by decide)

/-- A text with an operator before it. -/
theorem lexes_behind (h : HasTokens A text) (hoperator : IsSymbol operator) :
    ∃ ts, A.Lexes (" " ++ operator ++ " " ++ text).toList ts A.EndsOperand := by
  obtain ⟨ts, hts⟩ := h
  refine ⟨[operatorToken operator] ++ ts, ?_⟩
  rw [String.toList_append]
  exact hoperator.lexes.append_any hts

theorem spaced (h : HasTokens A text) (h' : HasTokens A text') (hoperator : IsSymbol operator) :
    HasTokens A (text ++ (" " ++ operator ++ " " ++ text')) := by
  obtain ⟨ts, hts⟩ := h.lexes_before hoperator
  obtain ⟨us, hus⟩ := h'
  refine ⟨ts ++ us, ?_⟩
  have hall := hts.append_any hus
  simpa [String.toList_append] using hall

end HasTokens

namespace Setting

variable {fill : Node → Node} {least level : Nat} {operator text : String}

/-- The part stands before an operator. -/
theorem before_operator (hoperator : IsSymbol operator) (htext : HasTokens A text)
    (hbinds : 1 ≤ level) (hlow : level < 18)
    (hfill : ∀ {e r}, e.rendered = .ok r → r.IsOperand →
      (fill e).rendered = .ok ⟨r.within least ++ (" " ++ operator ++ " " ++ text), level, true⟩) :
    ∃ before after trail, Setting A fill least level false before after trail := by
  obtain ⟨ts, hts⟩ := htext.lexes_behind hoperator
  refine ⟨[], ts, _, of_fixed "" _ hbinds Alphabet.Lexes.nil (by simp)
    (hts.mono fun c hc => hc.ends hlow) ?_ (fun _ => hlow) ?_⟩
  · rw [String.append_assoc, String.append_assoc]
    exact .of_text (by decide) _
  · intro e r he hr
    rw [hfill he hr, String.empty_append]

/-- The part stands behind an operator. -/
theorem behind_operator (hoperator : IsSymbol operator) (htext : HasTokens A text)
    (hequals : text.toList.head? ≠ some '=') (hbinds : 1 ≤ level) (hlow : level < 18)
    (hfill : ∀ {e r}, e.rendered = .ok r → r.IsOperand → (fill e).rendered =
      .ok ⟨text ++ (" " ++ operator ++ " ") ++ r.within least, level, true⟩) :
    ∃ before after trail, Setting A fill least level false before after trail := by
  obtain ⟨ts, hts⟩ := htext.lexes_before hoperator
  refine ⟨ts, [], _, of_fixed _ "" hbinds hts ?_
    (Alphabet.Lexes.nil.mono fun _ _ => trivial) (.inl rfl) (fun _ => hlow) ?_⟩
  · rw [String.toList_append, List.head?_append]
    cases hhead : text.toList.head? with
    | none => simp [String.toList_append]
    | some c => simpa [hhead] using hequals
  · intro e r he hr
    rw [hfill he hr, String.append_empty]

end Setting

end PhpMigration.JavaScript
