/-
Numbers in their places.

A number may stand wherever an expression may, and what is printed there has to be read as a number
again, between the tokens that stand around a name in the same place (`KeepsNumber`).  Two things
are in the way of that.  The infinities and what is no number are written as words, so they are
read as names.  And a number that is written with digits only goes on with a point, so as the object
of an access by name it takes the point away from the access, and often the name with it.

An integer with too many digits is not written at all.

Nothing else is in the way (`keepsNumber_iff`): a minus is an operator of its own, and the printer puts
the number in parentheses where it would be applied to more than the number; a point or an
exponent in the number keeps a second point apart; and every other place is followed by a mark that
goes on with no number.
-/
import PhpMigration.Proofs.JavaScript.Number
import PhpMigration.Proofs.JavaScript.Setting

namespace PhpMigration.JavaScript

open Lexer Grammar

variable {A : Alphabet}

/-! ### Places -/

/-- An expression in nested frames, of which the first is the outermost. -/
def surround (frames : List Frame) (e : Node) : Node := frames.foldr Frame.fill e

/-- The tokens that stand before and behind every name that is put in a place. -/
def IsAround (A : Alphabet) (frames : List Frame) (before after : List Token) : Prop :=
  ∀ name, A.IsVariable name → ∃ text,
    (surround frames (.identifier (.text name))).source = .ok text ∧
      A.Lexes text.toList (before ++ Token.word name :: after) A.EndsOperand

/-- The tokens, maybe in parentheses. -/
def grouped (inParentheses : Bool) (ts : List Token) : List Token :=
  if inParentheses then Token.mark "(" :: (ts ++ [Token.mark ")"]) else ts

/-- The literal of a number is read as that number, between the tokens that stand around its
place, and nothing that may stand behind the whole goes on with it. -/
def KeepsNumber (A : Alphabet) (frames : List Frame) (literal : Value) (x : Numeral) : Prop :=
  ∃ before after number inParentheses text, IsAround A frames before after ∧ IsNumber x number ∧
    (surround frames (.numericLiteral literal)).source = .ok text ∧
      A.Lexes text.toList (before ++ grouped inParentheses number ++ after) A.EndsOperand

/-- The place is the object of an access by name. -/
def isPointed (frames : List Frame) : Bool := frames.getLast?.any Frame.isPointed

/-- How tightly an expression in the place has to bind. -/
def leastOf (frames : List Frame) : Nat := (frames.getLast?.map Frame.least).getD 0

/-! ### The text around a place -/

theorem Frame.least_le (f : Frame) : f.least ≤ 18 := by
  cases f with
  | left _ operator _ => exact (ofBinary_between operator).2.le
  | right _ operator _ => exact (ofBinary_between operator).2
  | update _ before => cases before <;> exact Nat.le_of_ble_eq_true rfl
  | _ => exact Nat.le_of_ble_eq_true rfl

theorem Frame.least_of_isPointed {f : Frame} (h : f.isPointed = true) : f.least = 18 := by
  cases f with
  | object _ => rfl
  | _ => cases h

theorem leastOf_le (frames : List Frame) : leastOf frames ≤ 18 := by
  unfold leastOf
  cases frames.getLast? with
  | none => decide
  | some f => exact f.least_le

theorem leastOf_of_isPointed {frames : List Frame} (h : isPointed frames = true) :
    leastOf frames = 18 := by
  unfold isPointed at h
  unfold leastOf
  cases hlast : frames.getLast? with
  | none =>
      rw [hlast] at h
      cases h
  | some f =>
      rw [hlast] at h
      exact Frame.least_of_isPointed h

theorem Frame.source_fill (f : Frame) (e : Node) :
    (f.fill e).source = (f.fill e).expressionText := by
  cases f with
  | left logical _ _ => cases logical <;> rfl
  | right logical _ _ => cases logical <;> rfl
  | _ => rfl

theorem expressionText_of_rendered {e : Node} {r : Rendered} (he : e.rendered = .ok r)
    (hr : r.IsOperand) : e.expressionText = .ok r.text := by
  have hwithin : r.within Precedence.sequence = r.text := if_neg (Nat.not_lt.mpr hr.binds)
  rw [Node.expressionText, he, ← hwithin]
  rfl

/-- Nested frames are one frame. -/
theorem exists_setting (f : Frame) (frames : List Frame) (h : ∀ g ∈ f :: frames, g.IsSound A) :
    ∃ level before after trail, Setting A (surround (f :: frames)) (leastOf (f :: frames)) level
      (isPointed (f :: frames)) before after trail := by
  induction frames generalizing f with
  | nil =>
      obtain ⟨before, after, trail, hf⟩ := Frame.hasSetting (h f (by simp))
      exact ⟨_, before, after, trail, hf⟩
  | cons g frames ih =>
      obtain ⟨_, _, _, hf⟩ := Frame.hasSetting (h f (by simp))
      obtain ⟨_, _, _, _, hinner⟩ := ih g fun g' hg' => h g' (List.mem_cons_of_mem _ hg')
      obtain ⟨before, after, trail, hall⟩ :=
        hinner.comp hf fun hpointed => (Frame.least_of_isPointed hpointed).ge
      exact ⟨_, before, after, trail, hall⟩

/-- What is printed consists of the text of the expression in the place, in parentheses if it does
not bind tightly enough, and of the texts before and behind it; both are read on their own. -/
structure Split (A : Alphabet) (frames : List Frame) (before after : List Token)
    (trail : List Char) : Prop where
  closes : Closes (isPointed frames) trail
  behind : A.Lexes trail after A.EndsOperand
  fills : ∀ {e r}, e.rendered = .ok r → r.IsOperand → e.source = e.expressionText →
    ∃ lead text, (surround frames e).source = .ok text ∧
      text.toList = lead ++ (r.within (leastOf frames)).toList ++ trail ∧
      A.Lexes lead before fun c => (r.within (leastOf frames)).toList.head? = some c

theorem exists_split (frames : List Frame) (h : ∀ f ∈ frames, f.IsSound A) :
    ∃ before after trail, Split A frames before after trail := by
  cases frames with
  | nil =>
      refine ⟨[], [], [], .inl rfl, Alphabet.Lexes.nil.mono fun _ _ => trivial, ?_⟩
      intro e r he hr hsource
      refine ⟨[], r.text, ?_, ?_, Alphabet.Lexes.nil.mono fun _ _ => trivial⟩
      · show e.source = _
        rw [hsource, expressionText_of_rendered he hr]
      · have hwithin : r.within (leastOf []) = r.text := if_neg (Nat.not_lt_zero _)
        rw [hwithin, List.nil_append, List.append_nil]
  | cons f frames =>
      obtain ⟨level, before, after, trail, hsetting⟩ := exists_setting f frames h
      refine ⟨before, after, trail, hsetting.closes, hsetting.behind.mono fun _ => .of_ends, ?_⟩
      intro e r he hr _
      obtain ⟨lead, s, hs, -, hop, htext, hlead⟩ := hsetting.fills he hr
      exact ⟨lead, s.text, (f.source_fill _).trans (expressionText_of_rendered hs hop), htext, hlead⟩

/-- **An expression in its place.**  The tokens of the expression, maybe in parentheses, stand
between the tokens around the place, unless a point behind it would go on with it. -/
theorem Split.placed {frames : List Frame} {before after : List Token} {trail : List Char}
    (h : Split A frames before after trail) {e : Node} {r : Rendered} {ts : List Token}
    {next : Char → Prop} (he : e.rendered = .ok r) (hr : r.IsOperand)
    (hsource : e.source = e.expressionText) (hlex : A.Lexes r.text.toList ts next)
    (hends : ∀ c, A.EndsOperand c → next c)
    (hpoint : isPointed frames = true → r.precedence < 18 ∨ next '.') :
    ∃ text, (surround frames e).source = .ok text ∧ A.Lexes text.toList
      (before ++ grouped (decide (r.precedence < leastOf frames)) ts ++ after) A.EndsOperand := by
  obtain ⟨lead, text, htext, hsplit, hlead⟩ := h.fills he hr hsource
  have hwithin : ∃ next', A.Lexes (r.within (leastOf frames)).toList
      (grouped (decide (r.precedence < leastOf frames)) ts) next' ∧
      (∀ c, A.EndsOperand c → next' c) ∧ (isPointed frames = true → next' '.') := by
    by_cases hgroup : r.precedence < leastOf frames
    · have hmay : A.Lexes r.text.toList ts (MayFollow A .absent 0) :=
        hlex.mono fun c hc => hends c (hc.ends (by decide))
      refine ⟨Alphabet.anything, ?_, fun _ _ => trivial, fun _ => trivial⟩
      rw [Rendered.within, if_pos hgroup, decide_eq_true hgroup]
      exact lexes_bracketed (by decide : ("(", ")") ∈ brackets) hmay
    · refine ⟨next, ?_, hends, ?_⟩
      · rw [Rendered.within, if_neg hgroup, decide_eq_false hgroup]
        exact hlex
      · intro hp
        rw [leastOf_of_isPointed hp] at hgroup
        exact (hpoint hp).resolve_left hgroup
  obtain ⟨next', hinner, hends', hpoint'⟩ := hwithin
  refine ⟨text, htext, ?_⟩
  have hrest := hinner.followed h.behind (fun c hc => ?_) fun _ c hc => hends' c hc
  · rw [hsplit, List.append_assoc, List.append_assoc]
    refine hlead.append hrest ?_ ?_
    · simp [hr.within_ne_nil]
    · intro c hc
      obtain ⟨d, ds, hd⟩ := List.exists_cons_of_ne_nil (hr.within_ne_nil (leastOf frames))
      rw [hd] at hc ⊢
      exact hc
  · have hclose := h.closes.ends (A := A) hc
    by_cases hdot : c = '.'
    · rw [hdot]
      exact hpoint' (hclose.2 hdot)
    · exact hends' c ⟨hclose.1, hdot⟩

theorem isOperand_of_isName {name : String} (h : A.IsName name) :
    (Rendered.ofName (.text name)).IsOperand := by
  obtain ⟨c, cs, hname, hc, -⟩ := h
  refine ⟨rfl, Nat.le_of_ble_eq_true rfl, ?_, ?_⟩
  · show name.toList ≠ []
    simp [hname]
  · show name.toList.head? ≠ some '='
    rw [hname]
    simpa using (begins_mark_char hc).1

theorem endsName_point : A.EndsName '.' := A.continues_of_not_alphanum (by decide) (by decide)

theorem Split.isAround {frames : List Frame} {before after : List Token} {trail : List Char}
    (h : Split A frames before after trail) : IsAround A frames before after := by
  intro name hname
  obtain ⟨text, htext, hlex⟩ := h.placed (e := .identifier (.text name)) rfl
    (isOperand_of_isName hname.1) rfl (A.lexes_word hname.1) (fun c hc => hc.1)
    fun _ => .inr endsName_point
  refine ⟨text, htext, ?_⟩
  have hplain : ¬(Rendered.ofName (.text name)).precedence < leastOf frames :=
    Nat.not_lt.mpr ((leastOf_le frames).trans (Nat.le_of_ble_eq_true rfl))
  rw [decide_eq_false hplain, grouped, if_neg (by decide), List.append_assoc] at hlex
  exact hlex

/-! ### The tokens around a place are determined -/

theorem eq_of_append_cons {α : Type} {x y : α} {xs xs' ys ys' : List α} (hne : x ≠ y)
    (hx : xs ++ x :: ys = xs' ++ x :: ys') (hy : xs ++ y :: ys = xs' ++ y :: ys') :
    xs = xs' ∧ ys = ys' := by
  have hshort : ∀ {xs xs' ys ys' : List α} {more : List α}, xs' = xs ++ more →
      xs ++ x :: ys = xs' ++ x :: ys' → xs ++ y :: ys = xs' ++ y :: ys' → more = [] := by
    intro xs xs' ys ys' more hmore hx hy
    cases more with
    | nil => rfl
    | cons z more =>
        rw [hmore, List.append_assoc, List.append_cancel_left_eq] at hx hy
        exact absurd ((List.cons.inj hx).1.trans (List.cons.inj hy).1.symm) hne
  have heq : xs = xs' := by
    rcases List.append_eq_append_iff.mp hx with ⟨more, hmore, -⟩ | ⟨more, hmore, -⟩
    · rw [hmore, hshort hmore hx hy, List.append_nil]
    · rw [hmore, hshort hmore hx.symm hy.symm, List.append_nil]
  rw [heq, List.append_cancel_left_eq] at hx
  exact ⟨heq, (List.cons.inj hx).2⟩

theorem Alphabet.Lexes.lex_eq_some {cs : List Char} {ts : List Token} {next : Char → Prop}
    (h : A.Lexes cs ts next) : A.lex cs = some ts := by
  have hlex := h [] nofun
  simpa [Alphabet.lex] using hlex

theorem IsAround.unique {frames : List Frame} {before before' after after' : List Token}
    (h : IsAround A frames before after) (h' : IsAround A frames before' after') :
    before = before' ∧ after = after' := by
  have hsame : ∀ name, A.IsVariable name →
      before ++ Token.word name :: after = before' ++ Token.word name :: after' := by
    intro name hname
    obtain ⟨text, htext, hlex⟩ := h name hname
    obtain ⟨text', htext', hlex'⟩ := h' name hname
    obtain rfl : text = text' := Except.ok.inj (htext.symm.trans htext')
    exact Option.some.inj (hlex.lex_eq_some.symm.trans hlex'.lex_eq_some)
  have hvariable : ∀ name ∈ ["x", "y"], A.IsVariable name := by
    intro name hname
    rcases List.mem_cons.mp hname with rfl | hname
    · exact ⟨A.isName_of_isLetters (by decide), by decide⟩
    · obtain rfl := List.mem_singleton.mp hname
      exact ⟨A.isName_of_isLetters (by decide), by decide⟩
  exact eq_of_append_cons (by decide) (hsame "x" (hvariable "x" (by decide)))
    (hsame "y" (hvariable "y" (by decide)))

/-! ### Words -/

theorem word_not_mem_of_isNumber {x : Numeral} {number : List Token} (h : IsNumber x number)
    (inParentheses : Bool) (name : String) : Token.word name ∉ grouped inParentheses number := by
  cases h <;> cases inParentheses <;> simp [grouped]

theorem word_mem_grouped (inParentheses negative : Bool) (name : String) :
    Token.word name ∈ grouped inParentheses (Alphabet.signedTokens negative (Token.word name)) := by
  cases inParentheses <;> cases negative <;> simp [grouped, Alphabet.signedTokens]

theorem exists_letter {name : String} (h : Alphabet.isLetters name = true) :
    ∃ c cs, name.toList = c :: cs ∧ c.isAlphanum = true := by
  rw [Alphabet.isLetters, Bool.and_eq_true, Bool.not_eq_true', List.all_eq_true] at h
  cases hname : name.toList with
  | nil =>
      obtain rfl : name = "" := by simpa using hname
      exact absurd h.1 (by decide)
  | cons c cs =>
      refine ⟨c, cs, rfl, ?_⟩
      rw [Char.isAlphanum, h.2 c (by simp [hname]), Bool.true_or]

/-! ### Numbers that are too long -/

theorem exists_rendered_of_mem {es : List Node} {rs : List Rendered} (h : renderedEach es = .ok rs)
    {e : Node} (he : e ∈ es) : ∃ r, e.rendered = .ok r := by
  induction es generalizing rs with
  | nil => cases he
  | cons first rest ih =>
      rw [renderedEach] at h
      obtain ⟨r, hr, h⟩ := bind_eq_ok_iff.mp h
      obtain ⟨rs', hrs', -⟩ := bind_eq_ok_iff.mp h
      rcases List.mem_cons.mp he with rfl | he
      · exact ⟨r, hr⟩
      · exact ih hrs' he

theorem exists_rendered_of_propertyTexts {before after : List Property} {key value : Node}
    {computed : Bool} {texts : List String}
    (h : propertyTexts (before.map Property.toNode ++ .objectProperty key value computed ::
      after.map Property.toNode) = .ok texts) :
    (∃ r, key.rendered = .ok r) ∧ ∃ r, value.rendered = .ok r := by
  induction before generalizing texts with
  | nil =>
      rw [List.map_nil, List.nil_append, propertyTexts] at h
      obtain ⟨rk, hk, h⟩ := bind_eq_ok_iff.mp h
      obtain ⟨rv, hv, -⟩ := bind_eq_ok_iff.mp h
      exact ⟨⟨rk, hk⟩, rv, hv⟩
  | cons first before ih =>
      rw [List.map_cons, List.cons_append, Property.toNode, propertyTexts] at h
      obtain ⟨_, -, h⟩ := bind_eq_ok_iff.mp h
      obtain ⟨_, -, h⟩ := bind_eq_ok_iff.mp h
      obtain ⟨_, hrest, -⟩ := bind_eq_ok_iff.mp h
      exact ih hrest

theorem exists_rendered_of_joint {logical : Bool} {operator : String} {left right : Node}
    {s : Rendered} (h : (joint logical operator left right).rendered = .ok s) :
    (∃ r, left.rendered = .ok r) ∧ ∃ r, right.rendered = .ok r := by
  have hboth : ∃ rl, left.rendered = .ok rl ∧ ∃ rr, right.rendered = .ok rr := by
    cases logical with
    | false =>
        rw [joint, if_neg (by decide), Node.rendered] at h
        obtain ⟨rl, hl, h⟩ := bind_eq_ok_iff.mp h
        obtain ⟨rr, hr, -⟩ := bind_eq_ok_iff.mp h
        exact ⟨rl, hl, rr, hr⟩
    | true =>
        rw [joint, if_pos rfl, Node.rendered] at h
        obtain ⟨rl, hl, h⟩ := bind_eq_ok_iff.mp h
        obtain ⟨rr, hr, -⟩ := bind_eq_ok_iff.mp h
        exact ⟨rl, hl, rr, hr⟩
  obtain ⟨rl, hl, hright⟩ := hboth
  exact ⟨⟨rl, hl⟩, hright⟩

/-- A frame is printed only if its part is. -/
theorem Frame.exists_rendered {f : Frame} {e : Node} {s : Rendered}
    (h : (f.fill e).rendered = .ok s) : ∃ r, e.rendered = .ok r := by
  cases f with
  | unary | update | test | target | callee | object | indexed =>
      rw [fill, Node.rendered] at h
      obtain ⟨r, hr, -⟩ := bind_eq_ok_iff.mp h
      exact ⟨r, hr⟩
  | left => exact (exists_rendered_of_joint h).1
  | right => exact (exists_rendered_of_joint h).2
  | consequent | assigned | index =>
      rw [fill, Node.rendered] at h
      obtain ⟨_, -, h⟩ := bind_eq_ok_iff.mp h
      obtain ⟨r, hr, -⟩ := bind_eq_ok_iff.mp h
      exact ⟨r, hr⟩
  | alternate =>
      rw [fill, Node.rendered] at h
      obtain ⟨_, -, h⟩ := bind_eq_ok_iff.mp h
      obtain ⟨_, -, h⟩ := bind_eq_ok_iff.mp h
      obtain ⟨r, hr, -⟩ := bind_eq_ok_iff.mp h
      exact ⟨r, hr⟩
  | operand | element =>
      rw [fill, Node.rendered] at h
      obtain ⟨rs, hrs, -⟩ := bind_eq_ok_iff.mp h
      exact exists_rendered_of_mem hrs (by simp)
  | argument =>
      rw [fill, Node.rendered] at h
      obtain ⟨_, -, h⟩ := bind_eq_ok_iff.mp h
      obtain ⟨rs, hrs, -⟩ := bind_eq_ok_iff.mp h
      exact exists_rendered_of_mem hrs (by simp)
  | key =>
      rw [fill, Node.rendered] at h
      obtain ⟨texts, htexts, -⟩ := bind_eq_ok_iff.mp h
      exact (exists_rendered_of_propertyTexts htexts).1
  | value =>
      rw [fill, Node.rendered] at h
      obtain ⟨texts, htexts, -⟩ := bind_eq_ok_iff.mp h
      exact (exists_rendered_of_propertyTexts htexts).2

theorem exists_rendered_of_surround {frames : List Frame} {e : Node} {s : Rendered}
    (h : (surround frames e).rendered = .ok s) : ∃ r, e.rendered = .ok r := by
  induction frames generalizing s with
  | nil => exact ⟨s, h⟩
  | cons f frames ih =>
      obtain ⟨r, hr⟩ := Frame.exists_rendered h
      exact ih hr

theorem source_surround (frames : List Frame) (literal : Value) :
    (surround frames (.numericLiteral literal)).source =
      (surround frames (.numericLiteral literal)).expressionText := by
  cases frames with
  | nil => rfl
  | cons f frames => exact f.source_fill _

/-- **A number that is too long is not printed in any place.** -/
theorem isWritable_of_keepsNumber {frames : List Frame} {literal : Value} {x : Numeral}
    (h : KeepsNumber A frames literal x) : literal.isWritable = true := by
  obtain ⟨_, _, _, _, text, -, -, htext, -⟩ := h
  rw [source_surround, Node.expressionText] at htext
  obtain ⟨s, hs, -⟩ := bind_eq_ok_iff.mp htext
  obtain ⟨r, hr⟩ := exists_rendered_of_surround hs
  rw [Node.rendered] at hr
  exact (Rendered.ofLiteral_eq_ok_iff.mp hr).1

theorem isWritable_of_numeral? {literal : Value} {x : Numeral} (h : literal.numeral? = some x) :
    literal.isWritable = x.isWritable := by
  cases literal with
  | number y =>
      obtain rfl := Option.some.inj h
      rfl
  | flag b =>
      obtain rfl := Option.some.inj h
      rfl
  | _ => cases h

/-! ### Words in the place of numbers -/

theorem rendered_literal {literal : Value} (h : literal.isWritable = true) :
    (Node.numericLiteral literal).rendered = .ok (.ofNumber literal) := by
  rw [Node.rendered]
  exact Rendered.ofLiteral_eq_ok_iff.mpr ⟨h, rfl⟩

theorem isOperand_ofNumber {literal : Value} (hne : (literalText literal).toList ≠ [])
    (hequals : (literalText literal).toList.head? ≠ some '=') :
    (Rendered.ofNumber literal).IsOperand := by
  refine ⟨rfl, ?_, hne, hequals⟩
  unfold Rendered.ofNumber
  dsimp only
  split
  · decide
  · decide

/-- **An infinity is a name**, and so is what is no number. -/
theorem not_keepsNumber_of_not_isFinite {frames : List Frame} (h : ∀ f ∈ frames, f.IsSound A)
    {literal : Value} {x : Numeral} (hliteral : literal.numeral? = some x)
    (hx : x.isFinite = false) : ¬KeepsNumber A frames literal x := by
  intro hkeeps
  have hwritable := isWritable_of_keepsNumber hkeeps
  obtain ⟨before, after, number, inParentheses, text, haround, hnumber, htext, hlex⟩ := hkeeps
  obtain ⟨before', after', trail, hsplit⟩ := exists_split frames h
  obtain ⟨rfl, rfl⟩ := haround.unique hsplit.isAround
  obtain ⟨negative, name, hletters, hname⟩ := exists_word hx
  have hchars : (literalText literal).toList = Alphabet.signedChars negative name.toList := by
    rw [literalText, hliteral]
    exact hname
  obtain ⟨c, cs, hcs, hc⟩ := exists_letter hletters
  have hword := A.lexes_word (A.isName_of_isLetters hletters)
  rw [hcs] at hword hchars
  have hhead := @Alphabet.signedChars_head c cs negative hc
  have hlexed := Alphabet.lexes_signed negative hword hc
  rw [← hchars] at hhead hlexed
  obtain ⟨text', htext', hlex'⟩ := hsplit.placed (rendered_literal hwritable)
    (isOperand_ofNumber hhead.1 hhead.2) rfl hlexed (fun c hc => hc.1) fun _ => .inr endsName_point
  obtain rfl : text = text' := Except.ok.inj (htext.symm.trans htext')
  have hsame := Option.some.inj (hlex.lex_eq_some.symm.trans hlex'.lex_eq_some)
  rw [List.append_cancel_right_eq, List.append_cancel_left_eq] at hsame
  refine word_not_mem_of_isNumber hnumber inParentheses name ?_
  rw [hsame]
  exact word_mem_grouped _ negative name

/-! ### Points -/

/-- Digits and letters end where the text behind them begins. -/
theorem dropWhile_isDigit_eq {pointed : Bool} {trail : List Char} (htrail : Closes pointed trail)
    {cs : List Char} (hcs : ∀ c ∈ cs, A.continues c = true)
    (hends : ∀ c, ((cs ++ trail).dropWhile Char.isDigit).head? = some c → A.continues c = false) :
    (cs ++ trail).dropWhile Char.isDigit = trail := by
  induction cs with
  | nil =>
      cases trail with
      | nil => rfl
      | cons c trail =>
          refine List.dropWhile_cons_of_neg ?_
          intro hc
          have hclose := (htrail.ends (A := A) (c := c) rfl).1
          rw [Alphabet.continues_of_isDigit hc] at hclose
          cases hclose
  | cons c cs ih =>
      rw [List.cons_append] at hends ⊢
      by_cases hc : c.isDigit = true
      · rw [List.dropWhile_cons_of_pos hc] at hends ⊢
        exact ih (fun d hd => hcs d (by simp [hd])) hends
      · rw [List.dropWhile_cons_of_neg hc] at hends
        have hcontinues := hcs c (by simp)
        rw [hends c rfl] at hcontinues
        cases hcontinues

theorem rest_of_magnitude {cs rest : List Char} {n : Nat} (h : magnitude cs = some (n, rest)) :
    rest = cs.dropWhile Char.isDigit := by
  unfold magnitude at h
  dsimp only at h
  split at h
  · cases h
  · exact (Prod.mk.inj (Option.some.inj h)).2.symm

/-- Behind a sign the text is no exponent. -/
theorem Closes.magnitude_sign {pointed : Bool} {c : Char} {cs : List Char}
    (h : Closes pointed (c :: cs)) (hc : c = '-' ∨ c = '+') : magnitude cs = none := by
  have hall : ∀ m ∈ boundaries, m = "++" ∨ m = "--" ∨
      m.toList.head?.any (fun d => d != '-' && d != '+') = true := by decide
  rcases h with hnil | ⟨m, hm, more, hmore⟩ | ⟨-, more, hmore⟩
  · cases hnil
  · rcases hall m hm with rfl | rfl | hhead
    · obtain rfl : '+' :: more = cs := (List.cons.inj hmore).2
      rfl
    · obtain rfl : '-' :: more = cs := (List.cons.inj hmore).2
      rfl
    · obtain ⟨d, hd, hsign⟩ := (Option.any_eq_true _ _).mp hhead
      obtain ⟨ds, hds⟩ := List.head?_eq_some_iff.mp hd
      rw [hds] at hmore
      obtain rfl := (List.cons.inj hmore).1
      rcases hc with rfl | rfl <;> cases hsign
  · obtain rfl := (List.cons.inj hmore).1
    rcases hc with hc | hc <;> cases hc

/-- The ways to read an exponent. -/
theorem exponent_cases {cs rest : List Char} {e : Int} (h : exponent cs = some (e, rest)) :
    rest = cs ∨ ∃ c more, cs = c :: more ∧ ((∃ n, magnitude more = some (n, rest)) ∨
      ∃ s digits n, more = s :: digits ∧ (s = '-' ∨ s = '+') ∧ magnitude digits = some (n, rest)) := by
  unfold exponent at h
  split at h
  case h_3 =>
    exact .inl (Prod.mk.inj (Option.some.inj h)).2.symm
  all_goals
    refine .inr ⟨_, _, rfl, ?_⟩
    split at h
    all_goals
      obtain ⟨⟨n, left⟩, hmagnitude, hvalue⟩ := Option.map_eq_some_iff.mp h
      obtain ⟨-, rfl⟩ := Prod.mk.inj hvalue
    · exact .inr ⟨_, _, n, rfl, .inl rfl, hmagnitude⟩
    · exact .inr ⟨_, _, n, rfl, .inr rfl, hmagnitude⟩
    · exact .inl ⟨n, hmagnitude⟩

/-- If a name with a point before it makes an exponent, it does so up to its end. -/
theorem rest_of_exponent {pointed : Bool} {trail rest : List Char} {name : String} {e : Int}
    (hname : A.IsName name) (htrail : Closes pointed trail)
    (h : exponent (name.toList ++ trail) = some (e, rest))
    (hends : ∀ c, rest.head? = some c → A.continues c = false) : rest = trail := by
  obtain ⟨c, cs, hchars, hc, hcs⟩ := hname
  rw [hchars, List.cons_append] at h
  rcases exponent_cases h with rfl | ⟨d, more, hmore, ⟨n, hn⟩ | ⟨s, digits, n, rfl, hs, hn⟩⟩
  · have hcontinues := A.continues_of_begins c hc
    rw [hends c rfl] at hcontinues
    cases hcontinues
  · obtain ⟨-, rfl⟩ := List.cons.inj hmore
    have hrest := rest_of_magnitude hn
    rw [hrest] at hends ⊢
    exact dropWhile_isDigit_eq htrail hcs hends
  · obtain ⟨-, hsign⟩ := List.cons.inj hmore
    cases cs with
    | nil =>
        rw [List.nil_append] at hsign
        rw [hsign] at htrail
        rw [htrail.magnitude_sign hs] at hn
        cases hn
    | cons d' cs =>
        obtain rfl : d' = s := (List.cons.inj hsign).1
        have hcontinues := hcs d' (by simp)
        rcases hs with rfl | rfl
        · rw [A.continues_of_not_alphanum (by decide) (by decide)] at hcontinues
          cases hcontinues
        · rw [A.continues_of_not_alphanum (by decide) (by decide)] at hcontinues
          cases hcontinues

/-- **Digits take the point behind them.**  If such a text has tokens at all, a single one stands for
the digits, the point and the name. -/
theorem exists_lex_digits {pointed : Bool} {trail digits : List Char} {name : String}
    {ts : List Token} (hdigits : ∀ c ∈ digits, c.isDigit = true) (hne : digits ≠ [])
    (hname : A.IsName name) (htrail : Closes pointed trail)
    (h : A.lex (digits ++ '.' :: (name.toList ++ trail)) = some ts) :
    ∃ t us, ts = t :: us ∧ A.lex trail = some us := by
  obtain ⟨htake, hdrop⟩ : (digits ++ '.' :: (name.toList ++ trail)).takeWhile Char.isDigit = digits ∧
      (digits ++ '.' :: (name.toList ++ trail)).dropWhile Char.isDigit =
        '.' :: (name.toList ++ trail) := by
    refine Alphabet.takeWhile_append_of_ends hdigits fun c hc => ?_
    obtain rfl := Option.some.inj hc
    rfl
  have hfraction : fraction ('.' :: (name.toList ++ trail)) = ([], name.toList ++ trail) := by
    obtain ⟨c, cs, hchars, hc, -⟩ := id hname
    have hdigit : ¬c.isDigit = true := by
      intro hdigit
      rw [Alphabet.not_begins_of_isDigit hdigit] at hc
      cases hc
    rw [fraction, hchars, List.cons_append, List.takeWhile_cons_of_neg hdigit,
      List.dropWhile_cons_of_neg hdigit]
  have hrest : ∀ {t rest}, number? A (digits ++ '.' :: (name.toList ++ trail)) = some (t, rest) →
      rest = trail := by
    intro t rest hnumber
    simp only [number?, htake, hdrop, hfraction] at hnumber
    split at hnumber
    · cases hnumber
    · rename_i e left hexponent
      split at hnumber
      · cases hnumber
      · rename_i hsome
        obtain ⟨-, rfl⟩ := Prod.mk.inj (Option.some.inj hnumber)
        simp only [Bool.or_eq_true, not_or, Bool.not_eq_true] at hsome
        exact rest_of_exponent hname htrail hexponent (by simpa [Option.any_eq_false] using hsome.2)
  obtain ⟨d, ds, rfl⟩ := List.exists_cons_of_ne_nil hne
  have hd := hdigits d (by simp)
  obtain ⟨hblank, hbreak⟩ := A.not_blank d (Alphabet.continues_of_isDigit hd)
  rw [List.cons_append] at h hrest
  have hnext : next? A d (ds ++ '.' :: (name.toList ++ trail)) =
      number? A (d :: (ds ++ '.' :: (name.toList ++ trail))) := by
    rw [next?, if_neg (by simp [Alphabet.not_begins_of_isDigit hd]), if_pos (by simp [hd])]
  cases hnumber : number? A (d :: (ds ++ '.' :: (name.toList ++ trail))) with
  | none =>
      rw [Alphabet.lex, if_neg (by simp [hblank]), if_neg (by simp [hbreak])] at h
      split at h
      · cases h
      · rename_i hn
        rw [hnext, hnumber] at hn
        cases hn
  | some p =>
      obtain ⟨t, rest⟩ := p
      rw [Alphabet.lex_of_next? hblank hbreak (hnext.trans hnumber)] at h
      obtain ⟨us, hus, rfl⟩ := Option.map_eq_some_iff.mp h
      rw [hrest hnumber] at hus
      exact ⟨t, us, rfl, hus⟩

/-! ### The object of an access by name -/

theorem surround_object (frames : List Frame) (name : String) (e : Node) :
    surround (frames ++ [.object name]) e =
      surround frames (.member e (.identifier (.text name)) false) := by
  simp [surround, Frame.fill]

/-- An operand that binds tightly, with a name behind it. -/
def ofObject (r : Rendered) (name : String) : Rendered := ⟨r.text ++ ("." ++ name), 18, true⟩

theorem rendered_object {e : Node} {r : Rendered} (name : String) (he : e.rendered = .ok r)
    (hlevel : 18 ≤ r.precedence) :
    (Node.member e (.identifier (.text name)) false).rendered = .ok (ofObject r name) := by
  have hwithin : r.within Precedence.member = r.text := if_neg (Nat.not_lt.mpr hlevel)
  rw [Node.rendered, he]
  simp only [bind, Except.bind, pure, Except.pure, Node.rendered, Rendered.ofMember, hwithin]
  rw [if_neg (by decide), String.append_assoc]
  rfl

theorem isOperand_object {r : Rendered} (hr : r.IsOperand) (name : String) :
    (ofObject r name).IsOperand := by
  obtain ⟨c, cs, hcs⟩ := List.exists_cons_of_ne_nil hr.not_empty
  have hne := hr.not_equals
  rw [hcs] at hne
  refine ⟨rfl, (by decide : 1 ≤ 18), ?_, ?_⟩
  · simp [ofObject, String.toList_append, hcs]
  · simpa [ofObject, String.toList_append, hcs] using hne

theorem within_object (r : Rendered) (name : String) (frames : List Frame) :
    (ofObject r name).within (leastOf frames) = r.text ++ ("." ++ name) :=
  if_neg (Nat.not_lt.mpr (leastOf_le frames))

/-- Behind the object of an access by name come the point and the name. -/
theorem Split.isAround_object {frames : List Frame} {before after : List Token}
    {trail : List Char} (h : Split A frames before after trail) {name : String}
    (hname : A.IsName name) :
    IsAround A (frames ++ [.object name]) before (Token.mark "." :: Token.word name :: after) := by
  intro other hother
  have hlex : A.Lexes (ofObject (.ofName (.text other)) name).text.toList
      ([Token.word other] ++ [Token.mark ".", Token.word name]) A.EndsName := by
    show A.Lexes (other ++ ("." ++ name)).toList _ _
    rw [String.toList_append]
    refine (A.lexes_word hother.1).append (lexes_point_name hname) (by simp [String.toList_append]) ?_
    intro c hc
    rw [String.toList_append] at hc
    obtain rfl := Option.some.inj hc
    exact endsName_point
  obtain ⟨text, htext, hlex⟩ := h.placed
    (@rendered_object (.identifier (.text other)) _ name rfl (Nat.le_of_ble_eq_true rfl))
    (isOperand_object (isOperand_of_isName hother.1) name) rfl hlex (fun c hc => hc.1)
    fun _ => .inr endsName_point
  refine ⟨text, ?_, ?_⟩
  · rw [surround_object]
    exact htext
  · have hplain : ¬(ofObject (.ofName (.text other)) name).precedence < leastOf frames :=
      Nat.not_lt.mpr (leastOf_le frames)
    rw [decide_eq_false hplain, grouped, if_neg (by decide), List.append_assoc] at hlex
    exact hlex

/-- **Digits are no object of an access by name.** -/
theorem not_keepsNumber_of_isDigits {frames : List Frame} (h : ∀ f ∈ frames, f.IsSound A)
    {name : String} (hname : A.IsName name) {literal : Value} {x : Numeral}
    (hdigits : isDigits (literalText literal) = true) (hne : (literalText literal).toList ≠ []) :
    ¬KeepsNumber A (frames ++ [.object name]) literal x := by
  intro hkeeps
  have hwritable := isWritable_of_keepsNumber hkeeps
  obtain ⟨before, after, number, inParentheses, text, haround, hnumber, htext, hlex⟩ := hkeeps
  obtain ⟨before', after', trail, hsplit⟩ := exists_split frames h
  obtain ⟨rfl, rfl⟩ := haround.unique (hsplit.isAround_object hname)
  have hall : ∀ c ∈ (literalText literal).toList, c.isDigit = true := List.all_eq_true.mp hdigits
  have hhead : ∀ c, c.isDigit = false → (literalText literal).toList.head? ≠ some c := by
    intro c hc hhead
    rw [hall c (List.mem_of_head? hhead)] at hc
    cases hc
  have hoperand := isOperand_ofNumber hne (hhead '=' rfl)
  have hlevel : 18 ≤ (Rendered.ofNumber literal).precedence := by
    unfold Rendered.ofNumber
    dsimp only
    rw [if_neg (hhead '-' rfl)]
    decide
  obtain ⟨lead, text', htext', hsplits, hlead⟩ := hsplit.fills
    (rendered_object name (rendered_literal hwritable) hlevel) (isOperand_object hoperand name) rfl
  rw [surround_object] at htext
  obtain rfl : text = text' := Except.ok.inj (htext.symm.trans htext')
  have hchars : ((Rendered.ofNumber literal).text ++ ("." ++ name)).toList =
      (literalText literal).toList ++ '.' :: name.toList := by
    simp [Rendered.ofNumber, String.toList_append]
  rw [within_object, hchars] at hsplits hlead
  have hrest := hlead ((literalText literal).toList ++ '.' :: (name.toList ++ trail)) fun c hc => by
    obtain ⟨d, ds, hd⟩ := List.exists_cons_of_ne_nil hne
    rw [hd] at hc ⊢
    exact hc
  have hlexed := hlex.lex_eq_some
  rw [hsplits, List.append_assoc, List.append_assoc, List.cons_append, hrest] at hlexed
  obtain ⟨ts, hts, hsame⟩ := Option.map_eq_some_iff.mp hlexed
  obtain ⟨t, us, rfl, hus⟩ := exists_lex_digits hall hne hname hsplit.closes hts
  obtain rfl : us = after' := Option.some.inj (hus.symm.trans hsplit.behind.lex_eq_some)
  rw [List.append_assoc, List.append_cancel_left_eq] at hsame
  have hlength := congrArg List.length hsame
  simp only [List.length_cons, List.length_append] at hlength
  omega

/-! ### Numbers in their places -/

theorem exists_object_of_isPointed {frames : List Frame} (h : isPointed frames = true) :
    ∃ inner name, frames = inner ++ [.object name] := by
  unfold isPointed at h
  cases hlast : frames.getLast? with
  | none =>
      rw [hlast] at h
      cases h
  | some f =>
      rw [hlast] at h
      obtain ⟨inner, rfl⟩ := List.getLast?_eq_some_iff.mp hlast
      cases f with
      | object name => exact ⟨inner, name, rfl⟩
      | _ => cases h

/-- **A number stays a number** wherever it is printed, if and only if it is finite, is short enough
to be written and is not, written with digits only, the object of an access by name. -/
theorem keepsNumber_iff {frames : List Frame} (h : ∀ f ∈ frames, f.IsSound A) {literal : Value}
    {x : Numeral} (hliteral : literal.numeral? = some x) (hx : x.IsCanonical) :
    KeepsNumber A frames literal x ↔
      x.isFinite = true ∧ x.isWritable = true ∧
        ¬(isPointed frames = true ∧ isDigits (literalText literal) = true) := by
  have htext : literalText literal = numberText x := by
    rw [literalText, hliteral]
  by_cases hfinite : x.isFinite = true
  · obtain ⟨ts, next, hreads⟩ := exists_readsAs (A := A) hx hfinite
    rw [← htext] at hreads
    constructor
    · intro hkeeps
      refine ⟨hfinite, isWritable_of_numeral? hliteral ▸ isWritable_of_keepsNumber hkeeps, ?_⟩
      rintro ⟨hpointed, hdigits⟩
      obtain ⟨inner, name, rfl⟩ := exists_object_of_isPointed hpointed
      refine not_keepsNumber_of_isDigits (fun f hf => h f (by simp [hf])) ?_ hdigits
        hreads.not_empty hkeeps
      exact h (.object name) (by simp)
    · rintro ⟨-, hwritable, hplace⟩
      rw [← isWritable_of_numeral? hliteral] at hwritable
      obtain ⟨before, after, trail, hsplit⟩ := exists_split frames h
      obtain ⟨text, hsource, hlex⟩ := hsplit.placed (rendered_literal hwritable)
        (isOperand_ofNumber hreads.not_empty hreads.not_equals) rfl hreads.lexes hreads.of_ends
        (by
          intro hpointed
          rcases hreads.point with hminus | hdigits | hpoint
          · left
            unfold Rendered.ofNumber
            dsimp only
            rw [if_pos hminus]
            decide
          · exact absurd ⟨hpointed, hdigits⟩ hplace
          · exact .inr hpoint)
      exact ⟨before, after, ts, _, text, hsplit.isAround, hreads.isNumber, hsource, hlex⟩
  · constructor
    · intro hkeeps
      exact absurd hkeeps (not_keepsNumber_of_not_isFinite h hliteral (by simpa using hfinite))
    · intro hplace
      exact absurd hplace.1 hfinite

/-- The place of the object in `-(b - _.a)`. -/
def innerPlace : List Frame := [.unary "-", .right false "-" (.identifier (.text "b")), .object "a"]

/-- One half. -/
def half : Numeral := .double (.finite false 4503599627370496 (-53))

theorem isPiece_letter {name : String} (h : Alphabet.isLetters name = true)
    (hword : name ∉ reservedWords) : IsPiece A (.identifier (.text name)) :=
  isPiece_of_isExpression (.identifier ⟨A.isName_of_isLetters h, hword⟩) rfl

theorem isSound_innerPlace : ∀ f ∈ innerPlace, f.IsSound A := by
  intro f hf
  simp only [innerPlace, List.mem_cons, List.not_mem_nil, or_false] at hf
  rcases hf with rfl | rfl | rfl
  · exact (by decide : "-" ∈ unaryOperators)
  · exact ⟨.inr (by decide), isPiece_letter (by decide) (by decide)⟩
  · exact A.isName_of_isLetters (by decide)

theorem isCanonical_half : half.IsCanonical :=
  .inr ⟨by decide, by decide, by decide, by decide, .inr (by decide)⟩

/-- A point in the number keeps the point behind it apart. -/
theorem keepsNumber_half : (∀ f ∈ innerPlace, f.IsSound Alphabet.ascii) ∧
    (Value.number half).numeral? = some half ∧ half.IsCanonical ∧
      KeepsNumber Alphabet.ascii innerPlace (.number half) half :=
  ⟨isSound_innerPlace, rfl, isCanonical_half,
    (keepsNumber_iff isSound_innerPlace rfl isCanonical_half).mpr ⟨rfl, rfl, by decide +kernel⟩⟩

/-- Infinity is assigned as a name: `x = inf`. -/
theorem not_keepsNumber_infinite :
    ¬KeepsNumber Alphabet.ascii [.assigned "=" (.identifier (.text "x"))]
      (.number (.double (.infinite false))) (.double (.infinite false)) := by
  refine not_keepsNumber_of_not_isFinite ?_ rfl rfl
  intro f hf
  obtain rfl := List.mem_singleton.mp hf
  exact ⟨.inr (by decide), isPiece_letter (by decide) (by decide)⟩

end PhpMigration.JavaScript
