/-
The parts of statements: what is declared, the parameters of functions, and the heads of loops.

Names, parameters and declared variables are written with commas between them like expressions, but
each has a rule of its own, so the lists of all three are treated once (`listOf_spelled`), for any
rule and any way of printing the members one by one.

It is here that a text may fail to be read.  The first part of a counting loop is not read if it
shows the operator `in` (`part_spelled`); what is walked through is not read if it is several
expressions (`assignment_before_parenthesis`); and a loop by `of` is not read unless it declares
one variable without a value (`loopVariable_spelled`).
-/
import PhpMigration.Proofs.JavaScript.Spelling

namespace PhpMigration.JavaScript

open Lexer Grammar

variable {A : Alphabet}

/-! ### Lists of anything -/

/-- The tokens are read as a list by the rule for its members. -/
def ReadsListOf (item : Phrase Node) (xs : List Node)
    (ts : List Token) : Prop :=
  ∀ t rest, t ∈ closers → t ≠ Token.mark "," →
    parse (.listOf item) (ts ++ t :: rest) = some (xs, t :: rest)

/-- What is written for a member of a list is read as that member. -/
structure SpellsItem (A : Alphabet) (item : Phrase Node) (x : Node)
    (text : String) (t : Token) (ts : List Token) : Prop where
  lexes : A.Lexes text.toList (t :: ts) A.EndsOperand
  reads : ∀ u rest, u ∈ closers → parse item (t :: ts ++ u :: rest) = some (x, u :: rest)
  inner : t ∉ closers

theorem ReadsListOf.single {item : Phrase Node} {x : Node}
    {ts : List Token}
    (h : ∀ u rest, u ∈ closers → parse item (ts ++ u :: rest) = some (x, u :: rest)) :
    ReadsListOf item [x] ts := by
  intro t rest ht hne
  rw [parse_eq (.listOf _), rule, Grammar.listOf, h t rest ht]
  simp [skip?_cons_of_ne hne]

theorem ReadsListOf.cons {item : Phrase Node} {x : Node}
    {xs : List Node} {ts us : List Token}
    (h : ∀ u rest, u ∈ closers → parse item (ts ++ u :: rest) = some (x, u :: rest))
    (hxs : ReadsListOf item xs us) : ReadsListOf item (x :: xs) (ts ++ Token.mark "," :: us) := by
  intro t rest ht hne
  have hread : ts ++ Token.mark "," :: us ++ t :: rest = ts ++ Token.mark "," :: (us ++ t :: rest) := by simp
  rw [hread, parse_eq (.listOf _), rule, Grammar.listOf, h _ _ (by decide)]
  simp [skip?_cons, hxs t rest ht hne]

/-- Members of a list that have been printed one by one are read as the list. -/
theorem listOf_spelled (item : Phrase Node) (least : Nat)
    {each : List Node → Except PrintFault (List Rendered)} {one : Node → Rendered → Prop}
    (hnil : each [] = .ok [])
    (hcons : ∀ x xs r rs, one x r → each xs = .ok rs → each (x :: xs) = .ok (r :: rs))
    (xs : List Node) (hne : xs ≠ [])
    (hxs : ∀ x ∈ xs, ∃ r text t ts, one x r ∧ r.textWithin least = .ok text ∧
      SpellsItem A item x text t ts) :
    ∃ rs text t ts, each xs = .ok rs ∧ rs ≠ [] ∧ Rendered.commaList least rs = .ok text ∧
      A.Lexes text.toList (t :: ts) A.EndsOperand ∧ ReadsListOf item xs (t :: ts) ∧
      t ∉ closers := by
  induction xs with
  | nil => exact absurd rfl hne
  | cons x xs ih =>
      obtain ⟨r, first, t, ts, hone, hfirst, hs⟩ := hxs x (by simp)
      by_cases hmore : xs = []
      · subst hmore
        exact ⟨[r], first, t, ts, hcons x [] r [] hone hnil, by simp, commaList_single hfirst,
          hs.lexes, ReadsListOf.single hs.reads, hs.inner⟩
      · obtain ⟨rs, text, u, us, hrs, hrne, htext, hlex, hread, -⟩ :=
          ih hmore fun x hx => hxs x (by simp [hx])
        refine ⟨r :: rs, first ++ ", " ++ text, t, ts ++ Token.mark "," :: u :: us,
          hcons x xs r rs hone hrs, by simp, commaList_cons hfirst htext hrne, ?_,
          ReadsListOf.cons hs.reads hread, hs.inner⟩
        have hlexes : A.Lexes first.toList (t :: ts) (MayFollow A .absent 0) :=
          hs.lexes.mono fun c hc => hc.ends (by decide)
        exact lexes_separated (m := ",") (Or.inl rfl) hlexes hlex

/-! ### What is declared -/

theorem binding?_cons {name : String} (h : A.IsVariable name) (rest : List Token) :
    binding? (Token.word name :: rest) = some (.identifier (.text name), rest) := by
  rw [binding?, if_neg (by simpa using h.2)]

theorem word_not_closer (name : String) : Token.word name ∉ closers := by
  simp [closers]

theorem textWithin_ofName (name : String) {least : Nat} (h : least ≤ 20) :
    (Rendered.ofName (.text name)).textWithin least = .ok name := by
  show Except.ok (if 20 < least then "(" ++ name ++ ")" else name) = .ok name
  rw [if_neg (by omega)]

theorem name_spelled {name : String} (h : A.IsVariable name) :
    SpellsItem A .name (.identifier (.text name)) name (Token.word name) [] where
  lexes := (A.lexes_word h.1).mono fun _ hc => hc.1
  reads u rest _ := (parse_eq .name _).trans (binding?_cons h (u :: rest))
  inner := word_not_closer name

/-- What is declared is read as a target, whatever stands behind it. -/
theorem target_spelled {e : Node} (h : IsTarget A e) :
    ∃ r text t ts, e.rendered = .ok r ∧ r.isText = true ∧ r.within 1 = text ∧
      A.Lexes text.toList (t :: ts) A.EndsOperand ∧
      (∀ rest, parse .target (t :: ts ++ rest) = some (e, rest)) ∧ t ∉ closers := by
  cases h with
  | @name name h =>
      refine ⟨_, name, Token.word name, [], rfl, rfl, rfl, (name_spelled h).lexes, ?_,
        word_not_closer name⟩
      intro rest
      show parse .target (Token.word name :: rest) = _
      rw [parse_eq .target, rule, Grammar.target, skip?_cons_of_ne (by simp)]
      exact binding?_cons h rest
  | @names names h =>
      by_cases hne : names = []
      · subst hne
        have hnil : A.Lexes "".toList [] (MayFollow A .absent 0) :=
          Alphabet.Lexes.nil.mono fun _ _ => trivial
        refine ⟨.atom "[]", "[]", Token.mark "[", [Token.mark "]"], rfl, rfl, rfl, ?_, ?_, by decide⟩
        · exact (lexes_bracketed (by decide : ("[", "]") ∈ brackets) hnil).mono fun _ _ => trivial
        · intro rest
          rw [parse_eq .target]
          rfl
      · obtain ⟨rs, text, t, ts, hrs, -, htext, hlex, hread, hinner⟩ :=
          listOf_spelled (A := A) .name 1 rfl renderedEach_cons
            (names.map fun name => .identifier (.text name)) (by simpa using hne) (by
              intro x hx
              obtain ⟨name, hmem, rfl⟩ := List.mem_map.mp hx
              exact ⟨_, name, _, _, rfl, textWithin_ofName name (by decide),
                name_spelled (h name hmem)⟩)
        have hlexes : A.Lexes text.toList (t :: ts) (MayFollow A .absent 0) :=
          hlex.mono fun c hc => hc.ends (by decide)
        refine ⟨.atom ("[" ++ text ++ "]"), "[" ++ text ++ "]", Token.mark "[", t :: ts ++ [Token.mark "]"], ?_,
          rfl, rfl, ?_, ?_, by decide⟩
        · rw [Node.rendered, hrs]
          simp only [bind, Except.bind, Rendered.ofElements]
          rw [Precedence.sequence, htext]
          rfl
        · exact (lexes_bracketed (by decide : ("[", "]") ∈ brackets) hlexes).mono fun _ _ => trivial
        · intro rest
          have hne' : t ≠ Token.mark "]" := by
            rintro rfl
            exact hinner (by decide)
          have hlist := hread (Token.mark "]") rest (by decide) (by decide)
          rw [List.cons_append] at hlist
          have htokens : Token.mark "[" :: (t :: ts ++ [Token.mark "]"]) ++ rest =
              Token.mark "[" :: t :: (ts ++ Token.mark "]" :: rest) := by simp
          rw [htokens, parse_eq .target, rule, Grammar.target, skip?_cons]
          simp only
          rw [skip?_cons_of_ne hne']
          simp [hlist, skip?_cons]

theorem isPresent_of_isExpression {e : Node} (h : IsExpression A e) : e.isPresent = true := by
  cases h <;> rfl

/-- What has a value behind an equals sign. -/
theorem lexes_default {left right : String} {ts us : List Token} {e : Node} {level : Nat}
    {next : Char → Prop} (hl : A.Lexes left.toList ts A.EndsOperand)
    (hr : A.Lexes right.toList us (MayFollow A e level)) (hnext : ∀ c, next c → A.EndsOperand c) :
    A.Lexes (left ++ " = " ++ right).toList (ts ++ Token.mark "=" :: us) next := by
  have hleft : A.Lexes left.toList ts (MayFollow A .absent 0) :=
    hl.mono fun c hc => hc.ends (by decide)
  have hall := lexes_spaced (s := "=") (by decide) hleft hr
  have htext : left ++ " = " ++ right = spaced left "=" right := by
    simp [spaced, String.append_assoc]
  rw [htext]
  exact hall.mono fun c hc => MayFollow.of_ends (hnext c hc)

/-- How a declared variable is printed. -/
inductive RendersDeclarator : Node → Rendered → Prop where
  | bare {target : Node} {r : Rendered} (h : target.rendered = .ok r) :
      RendersDeclarator (.declarator target .absent) r
  | valued {target value : Node} {r v : Rendered} (h : target.rendered = .ok r)
      (hv : value.rendered = .ok v) (hpresent : value.isPresent = true) (hr : r.isText = true)
      (hvt : v.isText = true) : RendersDeclarator (.declarator target value) (.ofDefault r v)

theorem declaratorsRendered_cons (x : Node) (xs : List Node) (r : Rendered) (rs : List Rendered)
    (h : RendersDeclarator x r) (hrs : declaratorsRendered xs = .ok rs) :
    declaratorsRendered (x :: xs) = .ok (r :: rs) := by
  cases h with
  | bare h => simp [declaratorsRendered, h, hrs, Node.isPresent, bind, Except.bind, pure, Except.pure]
  | valued h hv hpresent hr hvt =>
      simp [declaratorsRendered, h, hv, hrs, hpresent, hr, hvt, bind, Except.bind, pure, Except.pure]

/-- What is read of a declared variable in the head of a loop. -/
def loopVariable (ts : List Token) : Option (Node × List Token) := do
  let (name, ts) ← parse .target ts
  let ts ← skip? (Token.word "of") ts
  pure (name, ts)

theorem declarator_spelled {d : Node} (h : IsDeclarator A d) (hw : d.isWritable = true) :
    ∃ r text t ts, RendersDeclarator d r ∧ r.textWithin 1 = .ok text ∧
      SpellsItem A .declarator d text t ts ∧
      ∀ u rest, u ∈ [Token.mark ",", Token.word "of"] → loopVariable (t :: ts ++ u :: rest) =
        if u = Token.word "of" then
          match d with
          | .declarator name .absent => some (name, rest)
          | _ => none
        else none := by
  cases h with
  | @bare name htarget =>
      obtain ⟨r, text, t, ts, hr, htext, hwithin, hlex, hread, hinner⟩ := target_spelled htarget
      refine ⟨r, text, t, ts, .bare hr, ?_, ⟨hlex, ?_, hinner⟩, ?_⟩
      · rw [Rendered.textWithin, if_pos htext, hwithin]
        rfl
      · intro u rest hu
        have hequals : u ≠ Token.mark "=" := by
          rintro rfl
          exact absurd hu (by decide)
        rw [parse_eq .declarator, rule, Grammar.declarator, hread]
        simp [parse_eq .initialValue, rule, initialValue, skip?_cons_of_ne hequals]
      · intro u rest hu
        rw [loopVariable, hread]
        by_cases hof : u = Token.word "of"
        · rw [if_pos hof, hof]
          simp [skip?_cons]
        · rw [if_neg hof]
          simp [skip?_cons_of_ne hof]
  | @valued name value htarget hvalue =>
      rw [Node.isWritable, Bool.and_eq_true] at hw
      obtain ⟨r, text, t, ts, hr, htext, hwithin, hlex, hread, hinner⟩ := target_spelled htarget
      obtain ⟨v, hv, hs⟩ := rendered_spelled hvalue hw.2
      obtain ⟨q, u, us, hq, hspells⟩ := hs.within 2 (by decide)
      have hpresent := isPresent_of_isExpression hvalue
      refine ⟨_, _, t, ts ++ Token.mark "=" :: u :: us, .valued hr hv hpresent htext hs.isText, rfl,
        ⟨?_, ?_, hinner⟩, ?_⟩
      · show A.Lexes (r.within 1 ++ " = " ++ v.within 2).toList _ _
        rw [hwithin]
        exact lexes_default hlex hspells.lexes fun _ hc => hc
      · intro w rest hw
        have htokens : t :: (ts ++ Token.mark "=" :: u :: us) ++ w :: rest =
            t :: ts ++ Token.mark "=" :: (u :: us ++ w :: rest) := by simp
        rw [htokens, parse_eq .declarator, rule, Grammar.declarator, hread]
        simp only [Option.bind_eq_bind, Option.bind_some, parse_eq .initialValue, rule,
          initialValue, skip?_cons]
        rw [hspells.reads.assignment hq true w rest (fun _ => rfl) hw]
        rfl
      · intro w rest _
        have htokens : t :: (ts ++ Token.mark "=" :: u :: us) ++ w :: rest =
            t :: ts ++ Token.mark "=" :: (u :: us ++ w :: rest) := by simp
        rw [htokens, loopVariable, hread]
        have hnone : value ≠ .absent := by
          rintro rfl
          simp [Node.isPresent] at hpresent
        simp [skip?_cons_of_ne (t := Token.word "of") (u := Token.mark "=") (by simp), hnone]

/-- The variable of a loop, if there is one without a value. -/
def loopVariable? : List Node → Option Node
  | [.declarator name .absent] => some name
  | _ => none

theorem eq_of_loopVariable? {ds : List Node} {name : Node} (h : loopVariable? ds = some name) :
    ds = [.declarator name .absent] := by
  unfold loopVariable? at h
  split at h
  · obtain rfl := Option.some.inj h
    rfl
  · simp at h

theorem isLoopVariable_eq (kind : Value) (ds : List Node) :
    (Node.declaration kind ds).isLoopVariable = (loopVariable? ds).isSome := by
  unfold Node.isLoopVariable loopVariable?
  split
  · rename_i heq
    cases heq
    rfl
  · rename_i hnone
    split
    · exact (hnone _ _ rfl).elim
    · rfl

theorem lexes_keyword {w : String} (h : Alphabet.isLetters w = true) :
    A.Lexes (w ++ " ").toList [Token.word w] Alphabet.anything := by
  rw [String.toList_append]
  refine (A.lexes_word (A.isName_of_isLetters h)).append (A.lexes_blank (c := ' ') (by decide))
    (by simp) ?_
  intro c hc
  obtain rfl := Option.some.inj hc
  exact A.continues_of_not_alphanum (by decide) (by decide)

/-- A declaration is read as what it declares.  As the head of a loop it is read only if it
declares one variable without a value. -/
theorem declaration_spelled {ds : List Node} (hne : ds ≠ []) (hds : ∀ d ∈ ds, IsDeclarator A d)
    (hw : eachWritable ds = true) :
    ∃ text ts, (Node.declaration (.text "const") ds).declarationText = .ok text ∧
      A.Lexes text.toList (Token.word "const" :: ts) A.EndsOperand ∧ ReadsListOf .declarator ds ts ∧
      ∀ rest, loopVariable (ts ++ Token.word "of" :: rest) =
        (loopVariable? ds).map fun name => (name, rest) := by
  rw [eachWritable_eq_true] at hw
  obtain ⟨d, ds, rfl⟩ := List.exists_cons_of_ne_nil hne
  obtain ⟨r, first, t, ts, hr, hfirst, hs, hloop⟩ :=
    declarator_spelled (hds d (by simp)) (hw d (by simp))
  have hword : A.Lexes ("const" ++ " ").toList [Token.word "const"] Alphabet.anything :=
    lexes_keyword (by decide)
  by_cases hmore : ds = []
  · subst hmore
    refine ⟨"const" ++ " " ++ first, t :: ts, ?_, ?_, ReadsListOf.single hs.reads, ?_⟩
    · rw [Node.declarationText, declaratorsRendered_cons d [] r [] hr rfl]
      simp only [bind, Except.bind, Precedence.sequence, commaList_single hfirst]
      rfl
    · rw [String.toList_append]
      exact hword.append_any hs.lexes
    · intro rest
      rw [hloop _ _ (by decide), if_pos rfl]
      cases d <;> try rfl
      rename_i name value
      cases value <;> rfl
  · obtain ⟨rs, text, u, us, hrs, hrne, htext, hlex, hread, -⟩ :=
      listOf_spelled (A := A) .declarator 1 rfl declaratorsRendered_cons ds hmore (by
        intro x hx
        obtain ⟨r, text, t, ts, hr, htext, hs, -⟩ :=
          declarator_spelled (hds x (by simp [hx])) (hw x (by simp [hx]))
        exact ⟨r, text, t, ts, hr, htext, hs⟩)
    have hlexes : A.Lexes first.toList (t :: ts) (MayFollow A .absent 0) :=
      hs.lexes.mono fun c hc => hc.ends (by decide)
    refine ⟨"const" ++ " " ++ (first ++ ", " ++ text), t :: ts ++ Token.mark "," :: u :: us, ?_, ?_,
      ReadsListOf.cons hs.reads hread, ?_⟩
    · rw [Node.declarationText, declaratorsRendered_cons d ds r rs hr hrs]
      simp only [bind, Except.bind, Precedence.sequence, commaList_cons hfirst htext hrne]
      rfl
    · rw [String.toList_append]
      exact hword.append_any (lexes_separated (m := ",") (Or.inl rfl) hlexes hlex)
    · intro rest
      have htokens : t :: ts ++ Token.mark "," :: u :: us ++ Token.word "of" :: rest =
          t :: ts ++ Token.mark "," :: (u :: us ++ Token.word "of" :: rest) := by simp
      obtain ⟨d', ds', rfl⟩ := List.exists_cons_of_ne_nil hmore
      have hnone : loopVariable? (d :: d' :: ds') = none := by
        cases d <;> try rfl
        rename_i name value
        cases value <;> rfl
      rw [htokens, hloop _ _ (by decide), if_neg (by simp), hnone]
      rfl

/-! ### Parameters -/

theorem parameter_spelled {p : Node} (h : IsParameter A p) (hw : p.isWritable = true) :
    ∃ r text t ts, p.rendered = .ok r ∧ r.textWithin 2 = .ok text ∧
      SpellsItem A .parameter p text t ts := by
  cases h with
  | @name name h =>
      refine ⟨_, name, Token.word name, [], rfl, textWithin_ofName name (by decide),
        (name_spelled h).lexes, ?_, word_not_closer name⟩
      intro u rest hu
      have hequals : u ≠ Token.mark "=" := by
        rintro rfl
        exact absurd hu (by decide)
      rw [List.singleton_append, parse_eq .parameter, rule, Grammar.parameter, binding?_cons h]
      simp [skip?_cons_of_ne hequals]
  | @default name value h hvalue =>
      rw [Node.isWritable, Bool.and_eq_true] at hw
      obtain ⟨v, hv, hs⟩ := rendered_spelled hvalue hw.2
      obtain ⟨q, u, us, hq, hspells⟩ := hs.within 2 (by decide)
      refine ⟨.ofDefault (.ofName (.text name)) v, name ++ " = " ++ v.within 2, Token.word name,
        Token.mark "=" :: u :: us, ?_, rfl, ?_, ?_, word_not_closer name⟩
      · rw [Node.rendered, hv]
        rfl
      · exact lexes_default (name_spelled h).lexes hspells.lexes fun _ hc => hc
      · intro w rest hw
        have htokens : Token.word name :: (Token.mark "=" :: u :: us) ++ w :: rest =
            Token.word name :: Token.mark "=" :: (u :: us ++ w :: rest) := by simp
        rw [htokens, parse_eq .parameter, rule, Grammar.parameter, binding?_cons h]
        simp only [Option.bind_eq_bind, Option.bind_some, skip?_cons]
        rw [hspells.reads.assignment hq true w rest (fun _ => rfl) hw]
        rfl

/-- The parameters of a function are read up to the closing parenthesis. -/
theorem parameters_spelled {params : List Node} (h : ∀ p ∈ params, IsParameter A p)
    (hw : eachWritable params = true) :
    ∃ rs text ts, renderedEach params = .ok rs ∧ Rendered.commaList 2 rs = .ok text ∧
      A.Lexes ("(" ++ text ++ ")").toList (Token.mark "(" :: (ts ++ [Token.mark ")"])) Alphabet.anything ∧
      ∀ rest, parse .parameters (ts ++ Token.mark ")" :: rest) = some (params, rest) := by
  by_cases hne : params = []
  · subst hne
    have hnil : A.Lexes "".toList [] (MayFollow A .absent 0) :=
      Alphabet.Lexes.nil.mono fun _ _ => trivial
    exact ⟨[], "", [], rfl, rfl, lexes_bracketed (by decide) hnil, fun _ => parse_eq .parameters _⟩
  · obtain ⟨rs, text, t, ts, hrs, -, htext, hlex, hread, hinner⟩ :=
      listOf_spelled (A := A) .parameter 2 rfl renderedEach_cons params hne
        fun p hp => parameter_spelled (h p hp) (eachWritable_eq_true.mp hw p hp)
    have hlexes : A.Lexes text.toList (t :: ts) (MayFollow A .absent 0) :=
      hlex.mono fun c hc => hc.ends (by decide)
    refine ⟨rs, text, t :: ts, hrs, htext, lexes_bracketed (by decide) hlexes, ?_⟩
    intro rest
    have hne' : t ≠ Token.mark ")" := by
      rintro rfl
      exact hinner (by decide)
    have hlist := hread (Token.mark ")") rest (by decide) (by decide)
    rw [List.cons_append] at hlist
    rw [List.cons_append, parse_eq .parameters, rule, Grammar.parameters, skip?_cons_of_ne hne']
    simp [hlist, skip?_cons]

/-! ### Expressions in statements -/

theorem precedence_pos {e : Node} (h : IsExpression A e) : 1 ≤ e.precedence := by
  cases h with
  | binary hop =>
      rw [Node.precedence, (isOperator_of_mem hop).2.1]
      exact Nat.le_trans (by decide) (isOperator_of_mem hop).1.four_le
  | @logical operator _ _ hop =>
      have hall : ∀ s ∈ logicalOperators, 1 ≤ Precedence.ofBinary (.text s) := by decide
      exact hall operator hop
  | @update _ _ before => cases before <;> exact Nat.succ_pos _
  | _ => exact Nat.succ_pos _

/-- What is written for an expression that nothing surrounds. -/
theorem expressionText_spelled {e : Node} (h : IsExpression A e) (hw : e.isWritable = true) :
    ∃ r level t ts, e.rendered = .ok r ∧ r.isText = true ∧
      Spells A e level e.hasOpenIn (r.within 1) t ts ∧ (e.precedence < 2 → level < 2) ∧
      (2 ≤ e.precedence → 2 ≤ level) := by
  obtain ⟨r, hr, hs⟩ := rendered_spelled h hw
  have hpositive := precedence_pos h
  obtain ⟨t, ts, hspells⟩ := hs.spells
  have hwithin : r.within 1 = r.text := by
    rw [Rendered.within, hs.precedence, if_neg (by omega)]
  rw [← hwithin] at hspells
  exact ⟨r, e.precedence, t, ts, hr, hs.isText, hspells, id, id⟩

theorem mayBegin_not_closer {t : Token} (h : mayBegin t = true) : t ∉ closers := by
  intro ht
  rw [(by decide : ∀ t ∈ closers, mayBegin t = false) t ht] at h
  simp at h

/-- An expression up to the token that closes it.  If it may not show the operator `in` and does, it
is not read. -/
theorem part_of_spells {e : Node} {level : Nat} {text : String} {t : Token} {ts : List Token}
    (h : Spells A e level e.hasOpenIn text t ts) {inOk : Bool} {close : Token}
    (hclose : close ∈ [Token.mark ";", Token.mark ")"]) (rest : List Token) :
    parse (.part inOk close) (t :: ts ++ close :: rest) =
      if inOk || !e.hasOpenIn then some (e, rest) else none := by
  obtain ⟨hcloser, hcomma⟩ := (by decide : ∀ c ∈ [Token.mark ";", Token.mark ")"],
    c ∈ closers ∧ c ≠ Token.mark ",") close hclose
  have hne : t ≠ close := by
    rintro rfl
    exact mayBegin_not_closer h.begins.mayBegin hcloser
  rw [List.cons_append, parse_eq (.part _ _), rule, Grammar.part, skip?_cons_of_ne hne,
    ← List.cons_append]
  by_cases hin : (inOk || !e.hasOpenIn) = true
  · rw [if_pos hin]
    have hopen : e.hasOpenIn = true → inOk = true := by
      intro ho
      simpa [ho] using hin
    rw [h.reads.expression inOk close rest hopen hcloser hcomma]
    simp [skip?_cons]
  · rw [if_neg hin]
    simp only [Bool.or_eq_true, Bool.not_eq_true', not_or, Bool.not_eq_false] at hin
    obtain ⟨hclosed, hopen⟩ := hin
    rw [Bool.not_eq_true] at hclosed
    subst hclosed
    have hstop := h.reads.expression_stops hopen (close :: rest)
    cases hread : parse (.expression false) (t :: ts ++ close :: rest) with
    | none => rfl
    | some found =>
        obtain ⟨e', more⟩ := found
        obtain ⟨more', rfl⟩ := hstop e' more hread
        have hword : Token.word "in" ≠ close := by
          rintro rfl
          exact absurd hclose (by decide)
        simp [skip?_cons_of_ne hword]

/-- A part of the head of a counting loop, which does not begin like a declaration. -/
theorem headerPart_spelled {e : Node} (h : IsPart A e) (hw : e.isWritable = true) (lead : String)
    (hlead : ∀ c ∈ lead.toList, isBlank c = true) :
    ∃ text ts, e.headerPart lead = .ok text ∧ A.Lexes text.toList ts A.EndsOperand ∧
      (∀ rest, skip? (Token.word "const") (ts ++ Token.mark ";" :: rest) = none) ∧
      ∀ inOk close rest, close ∈ [Token.mark ";", Token.mark ")"] →
        parse (.part inOk close) (ts ++ close :: rest) =
          if inOk || !e.hasOpenIn then some (e, rest) else none := by
  rcases h with rfl | h
  · refine ⟨"", [], rfl, Alphabet.Lexes.nil.mono fun _ _ => trivial, fun _ => rfl, ?_⟩
    intro inOk close rest _
    rw [List.nil_append, parse_eq (.part _ _), rule, Grammar.part, skip?_cons]
    simp [Node.hasOpenIn]
  · obtain ⟨r, level, t, ts, hr, htext, hs, -, -⟩ := expressionText_spelled h hw
    refine ⟨lead ++ r.within 1, t :: ts, ?_, ?_, ?_, fun inOk close rest hc => part_of_spells hs hc rest⟩
    · rw [Node.headerPart, if_pos (isPresent_of_isExpression h), hr]
      simp only [bind, Except.bind, Precedence.sequence, Rendered.textWithin, htext, if_true]
      rfl
    · rw [String.toList_append]
      exact (Alphabet.lexes_blanks hlead).append_any
        (hs.lexes.mono fun c hc => MayFollow.of_ends hc)
    · intro rest
      refine skip?_cons_of_ne ?_
      rintro rfl
      exact absurd hs.begins.mayBegin (by decide)

end PhpMigration.JavaScript
