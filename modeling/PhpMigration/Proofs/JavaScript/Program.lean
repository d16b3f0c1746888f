/-
Printed programs and what they are read as.

Statements are printed as lines, so what is known of a statement (`SpellsStatement`) is that,
behind any head that the line already holds, its lines yield its tokens, and that the tokens with
the end of a line behind them are read as the statement.  The unit of indentation has no part in
it, as long as it is blank.

Reading gives the statement back if it is grammatical, and nothing at all otherwise; both are
carried through blocks together, because the text up to the statement in question is read as usual
and the whole text has no tree then.
-/
import PhpMigration.Proofs.JavaScript.Head

namespace PhpMigration.JavaScript

open Lexer Grammar

variable {A : Alphabet} {indent : String}

/-! ### Lines -/

/-- The characters of some lines. -/
def linesChars (indent : String) (lines : List Line) : List Char :=
  lines.flatMap fun l => (l.render indent).toList ++ ['\n']

theorem isBlank_join {n : Nat} (h : ∀ c ∈ indent.toList, isBlank c = true) :
    ∀ c ∈ (String.join (List.replicate n indent)).toList, isBlank c = true := by
  intro c hc
  rw [String.toList_join, List.mem_flatMap] at hc
  obtain ⟨s, hs, hmem⟩ := hc
  rw [List.eq_of_mem_replicate hs] at hmem
  exact h c hmem

theorem lexes_line {l : Line} {ts : List Token} (h : ∀ c ∈ indent.toList, isBlank c = true)
    (hl : A.Lexes l.text.toList ts Alphabet.anything) :
    A.Lexes ((l.render indent).toList ++ ['\n']) (ts ++ [Token.lineBreak]) Alphabet.anything := by
  have hindent := A.lexes_blanks (isBlank_join (n := l.depth) h)
  rw [Line.render, String.toList_append]
  exact (hindent.append_any hl).append_any A.lexes_lineBreak

/-- The finished lines and the open one yield the tokens. -/
def Opens (A : Alphabet) (indent : String) (o : Opened) (ts : List Token) : Prop :=
  ∃ before last, A.Lexes (linesChars indent o.lines) before Alphabet.anything ∧
    A.Lexes o.last.toList last Alphabet.anything ∧ ts = before ++ last

theorem Opens.single {text : String} {ts : List Token}
    (h : A.Lexes text.toList ts Alphabet.anything) : Opens A indent ⟨[], text⟩ ts :=
  ⟨[], ts, Alphabet.Lexes.nil, h, rfl⟩

theorem Opens.close {o : Opened} {ts : List Token} (hindent : ∀ c ∈ indent.toList, isBlank c = true)
    (h : Opens A indent o ts) (depth : Nat) :
    A.Lexes (linesChars indent (o.close depth)) (ts ++ [Token.lineBreak]) Alphabet.anything := by
  obtain ⟨before, last, hbefore, hlast, rfl⟩ := h
  have hline : A.Lexes (linesChars indent [⟨depth, o.last⟩]) (last ++ [Token.lineBreak])
      Alphabet.anything := by
    simpa [linesChars] using lexes_line (l := ⟨depth, o.last⟩) hindent hlast
  have hall := hbefore.append_any hline
  simpa [Opened.close, linesChars] using hall

/-! ### Blocks -/

/-- What is written for a statement is read as that statement, if it is grammatical. -/
structure SpellsStatement (A : Alphabet) (indent : String) (s : Node) (t : Token)
    (ts : List Token) : Prop where
  flow : ∀ depth head hs, A.Lexes head.toList hs Alphabet.anything →
    ∃ o, s.flow depth head = .ok o ∧ Opens A indent o (hs ++ t :: ts)
  reads : ∀ rest, parse .statement (t :: ts ++ Token.lineBreak :: rest) =
    if s.isGrammatical then some (s, Token.lineBreak :: rest) else none
  inner : t ≠ Token.lineBreak ∧ t ≠ Token.mark "\x7d"
  choice : s.isChoice = true → t = Token.word "if"
  listed : ∀ given, s ≠ .unlisted given

theorem linesEach_cons {s : Node} (h : ∀ given, s ≠ .unlisted given) (depth : Nat)
    (previous : Option Node) (rest : List Node) :
    linesEach depth previous (s :: rest) = (do
      let first ← s.flow depth ""
      let more ← linesEach depth (some s) rest
      pure (separation previous s ++ first.close depth ++ more)) := by
  rw [linesEach.eq_def]
  split
  · rename_i heq
    simp at heq
  · rename_i heq
    exact absurd (List.cons.inj heq).1 (h false)
  · rename_i heq
    obtain ⟨rfl, rfl⟩ := List.cons.inj heq
    rfl

/-- The empty line that sets a function apart. -/
theorem lexes_separation (A : Alphabet) (indent : String) (previous : Option Node) (s : Node) :
    ∃ ts, A.Lexes (linesChars indent (separation previous s)) ts Alphabet.anything ∧
      ∀ rest, parse .statements (ts ++ rest) = parse .statements rest := by
  have hcases : separation previous s = [] ∨ separation previous s = [⟨0, ""⟩] := by
    unfold separation
    split
    · exact Or.inl rfl
    · exact Or.inl rfl
    · split
      · exact Or.inr rfl
      · exact Or.inl rfl
  rcases hcases with h | h
  · rw [h]
    exact ⟨[], Alphabet.Lexes.nil, fun _ => rfl⟩
  · rw [h]
    refine ⟨[Token.lineBreak], ?_, ?_⟩
    · have hempty : linesChars indent [⟨0, ""⟩] = ['\n'] := by
        simp [linesChars, Line.render]
      rw [hempty]
      exact A.lexes_lineBreak
    · intro rest
      rw [List.singleton_append, parse_eq .statements, rule, Grammar.statements.eq_def]

theorem statements_of_inner {t : Token} {ts : List Token} (h : t ≠ Token.lineBreak)
    (h' : t ≠ Token.mark "\x7d") :
    parse .statements (t :: ts) = (parse .statement (t :: ts)).bind fun first =>
      (parse .statements first.2).bind fun rest => some (first.1 :: rest.1, rest.2) := by
  rw [parse_eq .statements, rule, Grammar.statements.eq_def]
  split
  · rename_i heq
    simp at heq
  · rename_i heq
    exact absurd (List.cons.inj heq).1 h
  · rename_i heq
    exact absurd (List.cons.inj heq).1 h'
  · rfl

/-- The tokens end where statements end. -/
def AtEnd (rest : List Token) : Prop := rest = [] ∨ ∃ more, rest = Token.mark "\x7d" :: more

/-- What is written for some statements is read as those statements. -/
structure SpellsBody (A : Alphabet) (indent : String) (previous : Option Node) (body : List Node)
    (ts : List Token) : Prop where
  lines : ∀ depth, ∃ lines, linesEach depth previous body = .ok lines ∧ (lines = [] ↔ body = []) ∧
    A.Lexes (linesChars indent lines) ts Alphabet.anything
  reads : ∀ rest, AtEnd rest → parse .statements (ts ++ rest) =
    if Node.allGrammatical body then some (body, rest) else none

theorem body_spelled {body : List Node} (hindent : ∀ c ∈ indent.toList, isBlank c = true)
    (h : ∀ s ∈ body, ∃ t ts, SpellsStatement A indent s t ts) :
    ∀ previous, ∃ ts, SpellsBody A indent previous body ts := by
  induction body with
  | nil =>
      intro previous
      refine ⟨[], fun _ => ⟨[], rfl, by simp, Alphabet.Lexes.nil⟩, ?_⟩
      intro rest hend
      rcases hend with rfl | ⟨more, rfl⟩
      all_goals rw [List.nil_append, parse_eq .statements, rule, Grammar.statements.eq_def]
      all_goals rfl
  | cons s body ih =>
      intro previous
      obtain ⟨t, ts, hs⟩ := h s (by simp)
      obtain ⟨us, hbody⟩ := ih (fun s hs => h s (by simp [hs])) (some s)
      obtain ⟨vs, hvs, hskip⟩ := lexes_separation A indent previous s
      refine ⟨vs ++ (t :: ts ++ [Token.lineBreak] ++ us), ?_, ?_⟩
      · intro depth
        obtain ⟨o, ho, hopens⟩ := hs.flow depth "" [] Alphabet.Lexes.nil
        obtain ⟨lines, hlines, -, hlex⟩ := hbody.lines depth
        refine ⟨separation previous s ++ o.close depth ++ lines, ?_, ?_, ?_⟩
        · rw [linesEach_cons hs.listed, ho, hlines]
          rfl
        · simp [Opened.close]
        · have hall := hvs.append_any ((hopens.close hindent depth).append_any hlex)
          simpa [linesChars] using hall
      · intro rest hend
        have htokens : vs ++ (t :: ts ++ [Token.lineBreak] ++ us) ++ rest =
            vs ++ (t :: ts ++ Token.lineBreak :: (us ++ rest)) := by simp
        have hbreak : parse .statements (Token.lineBreak :: (us ++ rest)) =
            parse .statements (us ++ rest) := by
          rw [parse_eq .statements, rule, Grammar.statements.eq_def]
        rw [htokens, hskip, List.cons_append, statements_of_inner hs.inner.1 hs.inner.2,
          ← List.cons_append, hs.reads, Node.allGrammatical]
        cases hclosed : s.isGrammatical with
        | false => rfl
        | true =>
            rw [if_pos rfl, Option.bind_some, hbreak, hbody.reads rest hend]
            cases Node.allGrammatical body <;> rfl

/-- What is written for a block is read as that block. -/
structure SpellsBlock (A : Alphabet) (indent : String) (body : List Node) (ts : List Token) :
    Prop where
  flow : ∀ depth head hs, A.Lexes head.toList hs Alphabet.anything →
    ∃ lines, linesEach (depth + 1) none body = .ok lines ∧
      Opens A indent (bracketed depth head lines) (hs ++ Token.mark "\x7b" :: ts)
  reads : ∀ rest, parse .block (Token.mark "\x7b" :: (ts ++ rest)) =
    if Node.allGrammatical body then some (.block body, rest) else none

theorem block_spelled {body : List Node} (hindent : ∀ c ∈ indent.toList, isBlank c = true)
    (h : ∀ s ∈ body, ∃ t ts, SpellsStatement A indent s t ts) :
    ∃ ts, SpellsBlock A indent body ts := by
  obtain ⟨ts, hbody⟩ := body_spelled hindent h none
  have hopen : A.Lexes ['\x7b'] [Token.mark "\x7b"] Alphabet.anything :=
    A.lexes_solitary (m := "\x7b") (by decide)
  have hclose : A.Lexes ['\x7d'] [Token.mark "\x7d"] Alphabet.anything :=
    A.lexes_solitary (m := "\x7d") (by decide)
  have hread : ∀ rest, parse .statements (ts ++ Token.mark "\x7d" :: rest) =
      if Node.allGrammatical body then some (body, Token.mark "\x7d" :: rest) else none :=
    fun rest => hbody.reads _ (Or.inr ⟨rest, rfl⟩)
  by_cases hne : body = []
  · subst hne
    refine ⟨[Token.mark "\x7d"], ?_, ?_⟩
    · intro depth head hs hhead
      refine ⟨[], rfl, Opens.single ?_⟩
      have hall := hhead.append_any (hopen.append_any hclose)
      simpa [String.toList_append] using hall
    · intro rest
      have hnil : parse .statements (Token.mark "\x7d" :: rest) = some ([], Token.mark "\x7d" :: rest) := by
        rw [parse_eq .statements, rule, Grammar.statements.eq_def]
        rfl
      rw [parse_eq .block, rule, Grammar.block, skip?_cons]
      simp [hnil, skip?_cons, Node.allGrammatical]
  · refine ⟨Token.lineBreak :: (ts ++ [Token.mark "\x7d"]), ?_, ?_⟩
    · intro depth head hs hhead
      obtain ⟨lines, hlines, hnil, hlex⟩ := hbody.lines (depth + 1)
      have hsome : lines ≠ [] := fun heq => hne (hnil.mp heq)
      have hfirst : A.Lexes (linesChars indent [⟨depth, head ++ "\x7b"⟩])
          (hs ++ [Token.mark "\x7b"] ++ [Token.lineBreak]) Alphabet.anything := by
        have hline : A.Lexes (head ++ "\x7b").toList (hs ++ [Token.mark "\x7b"]) Alphabet.anything := by
          rw [String.toList_append]
          exact hhead.append_any hopen
        simpa [linesChars] using lexes_line (l := ⟨depth, head ++ "\x7b"⟩) hindent hline
      refine ⟨lines, hlines, hs ++ [Token.mark "\x7b"] ++ [Token.lineBreak] ++ ts, [Token.mark "\x7d"], ?_, ?_, ?_⟩
      · have hall := hfirst.append_any hlex
        simpa [bracketed, hsome, linesChars] using hall
      · simpa [bracketed, hsome] using hclose
      · simp
    · intro rest
      have htokens : Token.lineBreak :: (ts ++ [Token.mark "\x7d"]) ++ rest =
          Token.lineBreak :: (ts ++ Token.mark "\x7d" :: rest) := by simp
      have hbreak : parse .statements (Token.lineBreak :: (ts ++ Token.mark "\x7d" :: rest)) =
          parse .statements (ts ++ Token.mark "\x7d" :: rest) := by
        rw [parse_eq .statements, rule, Grammar.statements.eq_def]
      rw [htokens, parse_eq .block, rule, Grammar.block, skip?_cons]
      simp only [Option.bind_eq_bind, Option.bind_some]
      rw [hbreak, hread]
      cases Node.allGrammatical body <;> rfl

theorem flow_block (depth : Nat) (head : String) (body : List Node) :
    (Node.block body).blockFlow depth head =
      (linesEach (depth + 1) none body).map (bracketed depth head) := by
  rw [Node.blockFlow]
  cases linesEach (depth + 1) none body <;> rfl

theorem SpellsStatement.block {body : List Node} {ts : List Token}
    (h : SpellsBlock A indent body ts) :
    SpellsStatement A indent (.block body) (Token.mark "\x7b") ts where
  flow depth head hs hhead := by
    obtain ⟨lines, hlines, hopens⟩ := h.flow depth head hs hhead
    refine ⟨_, ?_, hopens⟩
    rw [Node.flow, hlines]
    rfl
  reads rest := by
    rw [List.cons_append, parse_eq .statement, rule, Grammar.statement.eq_def]
    exact h.reads _
  inner := by decide
  choice h := by simp [Node.isChoice] at h
  listed given h := by simp at h

/-! ### Statements of one line -/

theorem lexes_semicolon : A.Lexes [';'] [Token.mark ";"] Alphabet.anything :=
  A.lexes_solitary (m := ";") (by decide)

/-- A text up to its semicolon. -/
theorem lexes_terminated {text : String} {ts : List Token} (h : A.Lexes text.toList ts A.EndsOperand) :
    A.Lexes (text ++ ";").toList (ts ++ [Token.mark ";"]) Alphabet.anything := by
  rw [String.toList_append]
  refine h.append lexes_semicolon (by simp) ?_
  intro c hc
  obtain rfl := Option.some.inj hc
  exact endsOperand_of_isDelimiter (by decide)

/-- A statement that begins like an expression is one. -/
theorem statement_of_mayBegin {t : Token} {ts : List Token} (h : mayBegin t = true)
    (hbrace : t ≠ Token.mark "\x7b") :
    parse .statement (t :: ts) = (parse (.expression true) (t :: ts)).bind fun found =>
      (skip? (Token.mark ";") found.2).bind fun rest => some (.expressionStatement found.1, rest) := by
  rw [parse_eq .statement, rule, Grammar.statement.eq_def]
  split
  · rename_i heq
    exact absurd (List.cons.inj heq).1 hbrace
  all_goals first
    | rfl
    | rename_i heq
      rw [(List.cons.inj heq).1] at h
      exact absurd h (by decide)

/-- A text that would begin a block or a function is read in parentheses. -/
theorem statementText_spelled {e : Node} (h : IsExpression A e) (hw : e.isWritable = true) :
    ∃ text t ts, e.statementText = .ok text ∧ A.Lexes text.toList (t :: ts) A.EndsOperand ∧
      mayBegin t = true ∧ t ≠ Token.mark "\x7b" ∧
      ∀ rest, parse (.expression true) (t :: ts ++ Token.mark ";" :: rest) =
        some (e, Token.mark ";" :: rest) := by
  obtain ⟨r, level, t, ts, hr, htext, hs, -, -⟩ := expressionText_spelled h hw
  have hstatement : e.statementText = .ok (parenthesized (r.within 1)) := by
    rw [Node.statementText, hr]
    simp only [bind, Except.bind, htext, if_true]
    rfl
  rw [hstatement]
  unfold parenthesized
  split
  · have hp := hs.parenthesized
    refine ⟨_, _, _, rfl, hp.lexes.mono fun c hc => MayFollow.of_ends hc, hp.begins.mayBegin,
      by decide, ?_⟩
    intro rest
    exact hp.reads.expression true _ rest (by simp) (by decide) (by decide)
  · rename_i hplain
    refine ⟨_, t, ts, rfl, hs.lexes.mono fun c hc => MayFollow.of_ends hc, hs.begins.mayBegin, ?_, ?_⟩
    · intro hbrace
      obtain ⟨cs, hcs⟩ := List.head?_eq_some_iff.mp (hs.begins.brace hbrace)
      rw [hcs] at hplain
      simp at hplain
    · intro rest
      exact hs.reads.expression true _ rest (fun _ => rfl) (by decide) (by decide)

theorem expressionStatement_spelled {e : Node} (h : IsExpression A e) (hw : e.isWritable = true) :
    ∃ t ts, SpellsStatement A indent (.expressionStatement e) t ts := by
  obtain ⟨text, t, ts, htext, hlex, hbegin, hbrace, hread⟩ := statementText_spelled h hw
  refine ⟨t, ts ++ [Token.mark ";"], ?_, ?_, ?_, ?_, ?_⟩
  · intro depth head hs hhead
    refine ⟨⟨[], head ++ text ++ ";"⟩, ?_, Opens.single ?_⟩
    · rw [Node.flow, htext]
      rfl
    · have hall := hhead.append_any (lexes_terminated hlex)
      simpa [String.toList_append] using hall
  · intro rest
    have htokens : t :: (ts ++ [Token.mark ";"]) ++ Token.lineBreak :: rest =
        t :: (ts ++ Token.mark ";" :: Token.lineBreak :: rest) := by simp
    rw [htokens, statement_of_mayBegin hbegin hbrace, ← List.cons_append, hread]
    simp [skip?_cons, Node.isGrammatical]
  · refine ⟨?_, ?_⟩
    · rintro rfl
      simp [mayBegin] at hbegin
    · rintro rfl
      exact absurd hbegin (by decide)
  · intro hchoice
    simp [Node.isChoice] at hchoice
  · intro given heq
    simp at heq

theorem returnStatement_spelled {e : Node} (h : IsPart A e) (hw : e.isWritable = true) :
    ∃ t ts, SpellsStatement A indent (.returnStatement e) t ts := by
  have hinner : Token.word "return" ≠ Token.lineBreak ∧ Token.word "return" ≠ Token.mark "\x7d" := by decide
  rcases h with rfl | h
  · refine ⟨Token.word "return", [Token.mark ";"], ?_, ?_, hinner, ?_, ?_⟩
    · intro depth head hs hhead
      refine ⟨⟨[], head ++ "return;"⟩, rfl, Opens.single ?_⟩
      have hword : A.Lexes "return".toList [Token.word "return"] A.EndsOperand :=
        (A.lexes_word (A.isName_of_isLetters (by decide))).mono fun _ hc => hc.1
      have hall := hhead.append_any (lexes_terminated hword)
      simpa [String.toList_append] using hall
    · intro rest
      have hpart : parse (.part true (Token.mark ";")) (Token.mark ";" :: Token.lineBreak :: rest) =
          some (.absent, Token.lineBreak :: rest) := parse_eq _ _
      show parse .statement (Token.word "return" :: Token.mark ";" :: Token.lineBreak :: rest) = _
      rw [parse_eq .statement, rule, Grammar.statement.eq_def]
      simp only [hpart]
      rfl
    · intro hchoice
      simp [Node.isChoice] at hchoice
    · intro given heq
      simp at heq
  · obtain ⟨r, level, t, ts, hr, -, hs, -, -⟩ := expressionText_spelled h hw
    refine ⟨Token.word "return", t :: ts ++ [Token.mark ";"], ?_, ?_, hinner, ?_, ?_⟩
    · intro depth head hs' hhead
      refine ⟨⟨[], head ++ "return " ++ r.within 1 ++ ";"⟩, ?_, Opens.single ?_⟩
      · rw [Node.flow, if_pos (isPresent_of_isExpression h), Node.expressionText, hr]
        rfl
      · have hword : A.Lexes ("return" ++ " ").toList [Token.word "return"] Alphabet.anything :=
          lexes_keyword (by decide)
        have hend := lexes_terminated (hs.lexes.mono fun c hc => MayFollow.of_ends hc)
        have hall := hhead.append_any (hword.append_any hend)
        simpa [String.toList_append] using hall
    · intro rest
      have htokens : Token.word "return" :: (t :: ts ++ [Token.mark ";"]) ++ Token.lineBreak :: rest =
          Token.word "return" :: (t :: ts ++ Token.mark ";" :: Token.lineBreak :: rest) := by simp
      rw [htokens, parse_eq .statement, rule, Grammar.statement.eq_def]
      simp only [Option.bind_eq_bind]
      rw [part_of_spells hs (by decide)]
      simp [Node.isGrammatical]
    · intro hchoice
      simp [Node.isChoice] at hchoice
    · intro given heq
      simp at heq

theorem declaration_statement_spelled {ds : List Node} (hne : ds ≠ [])
    (hds : ∀ d ∈ ds, IsDeclarator A d) (hw : eachWritable ds = true) :
    ∃ t ts, SpellsStatement A indent (.declaration (.text "const") ds) t ts := by
  obtain ⟨text, ts, htext, hlex, hread, -⟩ := declaration_spelled hne hds hw
  refine ⟨Token.word "const", ts ++ [Token.mark ";"], ?_, ?_, by decide, ?_, ?_⟩
  · intro depth head hs hhead
    refine ⟨⟨[], head ++ text ++ ";"⟩, ?_, Opens.single ?_⟩
    · rw [Node.flow, htext]
      rfl
    · have hall := hhead.append_any (lexes_terminated hlex)
      simpa [String.toList_append] using hall
  · intro rest
    have htokens : Token.word "const" :: (ts ++ [Token.mark ";"]) ++ Token.lineBreak :: rest =
        Token.word "const" :: (ts ++ Token.mark ";" :: Token.lineBreak :: rest) := by simp
    rw [htokens, parse_eq .statement, rule, Grammar.statement.eq_def]
    simp only [Option.bind_eq_bind]
    rw [hread _ _ (by decide) (by decide)]
    rw [Option.bind_some]
    simp only [skip?_cons, Option.bind_some, Node.isGrammatical]
    rfl
  · intro hchoice
    simp [Node.isChoice] at hchoice
  · intro given heq
    simp at heq

/-! ### Statements with blocks -/

theorem SpellsBlock.blockFlow {body : List Node} {ts : List Token}
    (h : SpellsBlock A indent body ts) {head : String} {hs : List Token} (depth : Nat)
    (hhead : A.Lexes head.toList hs Alphabet.anything) :
    ∃ o, (Node.block body).blockFlow depth head = .ok o ∧
      Opens A indent o (hs ++ Token.mark "\x7b" :: ts) := by
  obtain ⟨lines, hlines, hopens⟩ := h.flow depth head hs hhead
  refine ⟨_, ?_, hopens⟩
  rw [flow_block, hlines]
  rfl

/-- A statement that is made of a head and a block.  The head is read or not whatever the block
holds. -/
theorem headed_spelled {s : Node} {body : List Node} {header : String} {t : Token}
    {ts : List Token} (mk : Node → Node) (closed : Bool) (hs : s = mk (.block body))
    (hbody : ∃ bs, SpellsBlock A indent body bs)
    (hlex : A.Lexes header.toList (t :: ts) Alphabet.anything)
    (hflow : ∀ depth head, s.flow depth head = (Node.block body).blockFlow depth (head ++ header))
    (hread : ∀ rest, parse .statement (t :: ts ++ rest) =
      if closed then (parse .block rest).map fun found => (mk found.1, found.2) else none)
    (hclosed : s.isGrammatical = (closed && Node.allGrammatical body))
    (hinner : t ≠ Token.lineBreak ∧ t ≠ Token.mark "\x7d") (hchoice : s.isChoice = false)
    (hlisted : ∀ given, s ≠ .unlisted given) : ∃ t ts, SpellsStatement A indent s t ts := by
  obtain ⟨bs, hb⟩ := hbody
  refine ⟨t, ts ++ Token.mark "\x7b" :: bs, ?_, ?_, hinner, by simp [hchoice], hlisted⟩
  · intro depth head us hhead
    have hall : A.Lexes (head ++ header).toList (us ++ t :: ts) Alphabet.anything := by
      rw [String.toList_append]
      exact hhead.append_any hlex
    obtain ⟨o, ho, hopens⟩ := hb.blockFlow depth hall
    refine ⟨o, ?_, by simpa using hopens⟩
    rw [hflow, ho]
  · intro rest
    have htokens : t :: (ts ++ Token.mark "\x7b" :: bs) ++ Token.lineBreak :: rest =
        t :: ts ++ Token.mark "\x7b" :: (bs ++ Token.lineBreak :: rest) := by simp
    rw [htokens, hread, hb.reads, hclosed, hs]
    cases closed <;> cases Node.allGrammatical body <;> rfl

/-- A word with something in parentheses behind it. -/
theorem lexes_head {w text : String} {ts : List Token} (hw : Alphabet.isLetters w = true)
    (h : A.Lexes text.toList ts A.EndsOperand) :
    A.Lexes (w ++ " (" ++ text ++ ") ").toList (Token.word w :: Token.mark "(" :: (ts ++ [Token.mark ")"]))
      Alphabet.anything := by
  have hinner : A.Lexes text.toList ts (MayFollow A .absent 0) :=
    h.mono fun c hc => hc.ends (by decide)
  have hbracket := lexes_bracketed (by decide : ("(", ")") ∈ brackets) hinner
  have hall := (lexes_keyword (A := A) hw).append_any
    (hbracket.append_any (A.lexes_blank (c := ' ') (by decide)))
  simpa [String.toList_append] using hall

/-- What is written for a condition is read as that condition. -/
theorem condition_spelled {e : Node} (h : IsExpression A e) (hw : e.isWritable = true) :
    ∃ text ts, e.expressionText = .ok text ∧ A.Lexes text.toList ts A.EndsOperand ∧
      ∀ rest, parse .condition (Token.mark "(" :: (ts ++ Token.mark ")" :: rest)) = some (e, rest) := by
  obtain ⟨r, level, t, ts, hr, -, hs, -, -⟩ := expressionText_spelled h hw
  refine ⟨r.within 1, t :: ts, ?_, hs.lexes.mono fun c hc => MayFollow.of_ends hc, ?_⟩
  · rw [Node.expressionText, hr]
    rfl
  · intro rest
    rw [parse_eq .condition, rule, Grammar.condition, skip?_cons]
    simp only [Option.bind_eq_bind, Option.bind_some]
    rw [hs.reads.expression true _ rest (fun _ => rfl) (by decide) (by decide)]
    simp [skip?_cons]

theorem whileStatement_spelled {test : Node} {body : List Node} (htest : IsExpression A test)
    (hw : test.isWritable = true) (hbody : ∃ bs, SpellsBlock A indent body bs) :
    ∃ t ts, SpellsStatement A indent (.whileStatement test (.block body)) t ts := by
  obtain ⟨text, ts, htext, hlex, hread⟩ := condition_spelled htest hw
  have hhead := lexes_head (by decide : Alphabet.isLetters "while" = true) hlex
  refine headed_spelled (.whileStatement test) true rfl hbody hhead ?_ ?_ ?_ (by decide) rfl
    (by simp)
  · intro depth head
    rw [Node.flow, htext]
    simp [bind, Except.bind, String.append_assoc]
  · intro rest
    have htokens : Token.word "while" :: Token.mark "(" :: (ts ++ [Token.mark ")"]) ++ rest =
        Token.word "while" :: Token.mark "(" :: (ts ++ Token.mark ")" :: rest) := by simp
    rw [htokens, parse_eq .statement, rule, Grammar.statement.eq_def, if_pos rfl]
    simp only [Option.bind_eq_bind]
    rw [hread]
    cases hblock : parse .block rest <;> simp [hblock]
  · rw [Node.isGrammatical, Node.isGrammatical, Bool.true_and]

theorem functionDeclaration_spelled {name : String} {params body : List Node}
    (hname : A.IsVariable name) (hparams : ∀ p ∈ params, IsParameter A p)
    (hw : eachWritable params = true) (hbody : ∃ bs, SpellsBlock A indent body bs) :
    ∃ t ts, SpellsStatement A indent
      (.functionDeclaration (.identifier (.text name)) params (.block body)) t ts := by
  obtain ⟨rs, text, ts, hrs, htext, hlex, hread⟩ := parameters_spelled hparams hw
  have hhead : A.Lexes ("function" ++ " " ++ (name ++ ("(" ++ text ++ ")") ++ " ")).toList
      (Token.word "function" :: Token.word name :: Token.mark "(" :: (ts ++ [Token.mark ")"])) Alphabet.anything := by
    have hword : A.Lexes ("function" ++ " ").toList [Token.word "function"] Alphabet.anything :=
      lexes_keyword (by decide)
    have hleft : A.Lexes name.toList [Token.word name] (MayFollow A .absent 0) :=
      (A.lexes_word hname.1).mono fun c hc => hc.no_name
    have hcall := lexes_before_bracket (by decide) hleft hlex
    have hall := hword.append_any (hcall.append_any (A.lexes_blank (c := ' ') (by decide)))
    simpa [String.toList_append] using hall
  refine headed_spelled (.functionDeclaration (.identifier (.text name)) params) true rfl hbody
    hhead ?_ ?_ ?_ (by decide) rfl (by simp)
  · intro depth head
    rw [Node.flow, hrs]
    simp only [bind, Except.bind, Node.functionName, pure, Except.pure, Precedence.assignment, htext]
    simp [Value.shown, String.append_assoc]
  · intro rest
    have htokens : Token.word "function" :: Token.word name :: Token.mark "(" :: (ts ++ [Token.mark ")"]) ++ rest =
        Token.word "function" :: Token.word name :: Token.mark "(" :: (ts ++ Token.mark ")" :: rest) := by simp
    rw [htokens, parse_eq .statement, rule, Grammar.statement.eq_def, if_pos rfl]
    simp only [Option.bind_eq_bind, binding?_cons hname, Option.bind_some, skip?_cons]
    rw [hread]
    cases hblock : parse .block rest <;> simp [hblock]
  · rw [Node.isGrammatical, Node.isGrammatical, Bool.true_and]

/-! ### Loops with heads -/

theorem forStatement_spelled {start test update : Node} {body : List Node} (hstart : IsPart A start)
    (htest : IsPart A test) (hupdate : IsPart A update) (hws : start.isWritable = true)
    (hwt : test.isWritable = true) (hwu : update.isWritable = true)
    (hbody : ∃ bs, SpellsBlock A indent body bs) :
    ∃ t ts, SpellsStatement A indent (.forStatement start test update (.block body)) t ts := by
  obtain ⟨text, ts, htext, hlex, hconst, hread⟩ := headerPart_spelled hstart hws "" (by simp)
  have hblank : ∀ c ∈ " ".toList, isBlank c = true := List.all_eq_true.mp (by decide)
  obtain ⟨text', ts', htext', hlex', -, hread'⟩ := headerPart_spelled htest hwt " " hblank
  obtain ⟨text'', ts'', htext'', hlex'', -, hread''⟩ := headerPart_spelled hupdate hwu " " hblank
  have hinner : A.Lexes (text ++ ";" ++ (text' ++ ";") ++ text'').toList
      (ts ++ [Token.mark ";"] ++ (ts' ++ [Token.mark ";"] ++ ts'')) A.EndsOperand := by
    have hall := (lexes_terminated hlex).append_any ((lexes_terminated hlex').append_any hlex'')
    simpa [String.toList_append] using hall
  have hhead := lexes_head (by decide : Alphabet.isLetters "for" = true) hinner
  -- The first part of the head must not show the operator `in`, the others may.
  refine headed_spelled (.forStatement start test update) (!start.hasOpenIn) rfl hbody hhead ?_ ?_ ?_
    (by decide) rfl (by simp)
  · intro depth head
    rw [Node.flow, htext, htext', htext'']
    simp [bind, Except.bind, String.append_assoc]
  · intro rest
    have htokens : Token.word "for" :: Token.mark "(" :: ((ts ++ [Token.mark ";"] ++ (ts' ++ [Token.mark ";"] ++ ts'')) ++
        [Token.mark ")"]) ++ rest = Token.word "for" :: Token.mark "(" :: (ts ++ Token.mark ";" ::
          (ts' ++ Token.mark ";" :: (ts'' ++ Token.mark ")" :: rest))) := by simp
    rw [htokens, parse_eq .statement, rule, Grammar.statement.eq_def]
    simp only [Option.bind_eq_bind, Option.bind_some, skip?_cons, hconst]
    rw [hread false _ _ (by decide), Bool.false_or]
    cases hopen : start.hasOpenIn with
    | true => rfl
    | false =>
        simp only [Bool.not_false, if_true, Option.bind_some, hread' true (Token.mark ";") _ (by decide),
          hread'' true (Token.mark ")") _ (by decide), Bool.true_or]
        cases parse Phrase.block rest <;> simp
  · rw [Node.isGrammatical, Node.isGrammatical]

/-- What is walked through by a loop is read unless it is several expressions. -/
theorem assignment_before_parenthesis {e : Node} (h : IsExpression A e)
    (hw : e.isWritable = true) :
    ∃ text ts, e.expressionText = .ok text ∧ A.Lexes text.toList ts A.EndsOperand ∧
      ∀ rest, ((parse (.assignment true) (ts ++ Token.mark ")" :: rest)).bind fun found =>
        (skip? (Token.mark ")") found.2).map fun more => (found.1, more)) =
          if 2 ≤ e.precedence then some (e, rest) else none := by
  obtain ⟨r, level, t, ts, hr, -, hs, hlow, hhigh⟩ := expressionText_spelled h hw
  refine ⟨r.within 1, t :: ts, ?_, hs.lexes.mono fun c hc => MayFollow.of_ends hc, ?_⟩
  · rw [Node.expressionText, hr]
    rfl
  · intro rest
    by_cases hle : 2 ≤ e.precedence
    · rw [if_pos hle, hs.reads.assignment (hhigh hle) true _ rest (fun _ => rfl) (by decide)]
      simp [skip?_cons]
    · rw [if_neg hle]
      obtain ⟨first, more, hread⟩ := hs.reads.comma_stops (hlow (by omega)) (Token.mark ")" :: rest)
      rw [hread]
      simp [skip?_cons_of_ne (t := Token.mark ")") (u := Token.mark ",") (by simp)]

theorem forOf_spelled {ds body : List Node} {right : Node} (hne : ds ≠ [])
    (hds : ∀ d ∈ ds, IsDeclarator A d) (hright : IsExpression A right)
    (hwd : eachWritable ds = true) (hwr : right.isWritable = true)
    (hbody : ∃ bs, SpellsBlock A indent body bs) :
    ∃ t ts, SpellsStatement A indent
      (.forOf (.declaration (.text "const") ds) right (.block body)) t ts := by
  obtain ⟨text, ts, htext, hlex, -, hloop⟩ := declaration_spelled hne hds hwd
  obtain ⟨text', ts', htext', hlex', hread'⟩ := assignment_before_parenthesis hright hwr
  have hinner : A.Lexes (text ++ (" " ++ ("of" ++ " ")) ++ text').toList
      (Token.word "const" :: ts ++ ([] ++ [Token.word "of"] ++ ts')) A.EndsOperand := by
    have hblank : A.Lexes " ".toList [] Alphabet.anything := A.lexes_blank (by decide)
    have hword : A.Lexes ("of" ++ " ").toList [Token.word "of"] Alphabet.anything :=
      lexes_keyword (by decide)
    have hof := hblank.append_any (hword.append_any hlex')
    have hall := hlex.append hof (by simp) (by
      intro c hc
      obtain rfl := Option.some.inj hc
      exact endsOperand_of_isDelimiter (by decide))
    simpa [String.toList_append] using hall
  have hhead := lexes_head (by decide : Alphabet.isLetters "for" = true) hinner
  let closed := (loopVariable? ds).isSome && decide (2 ≤ right.precedence)
  refine headed_spelled (.forOf (.declaration (.text "const") ds) right) closed rfl hbody hhead ?_ ?_
    ?_ (by decide) rfl (by simp)
  · intro depth head
    rw [Node.flow, htext, htext']
    simp [bind, Except.bind, String.append_assoc]
  · intro rest
    have htokens : Token.word "for" :: Token.mark "(" :: ((Token.word "const" :: ts ++ ([] ++ [Token.word "of"] ++ ts')) ++
        [Token.mark ")"]) ++ rest = Token.word "for" :: Token.mark "(" :: Token.word "const" :: (ts ++ Token.word "of" ::
          (ts' ++ Token.mark ")" :: rest)) := by simp
    have hstatement : parse .statement (Token.word "for" :: Token.mark "(" :: Token.word "const" ::
        (ts ++ Token.word "of" :: (ts' ++ Token.mark ")" :: rest))) =
        (loopVariable (ts ++ Token.word "of" :: (ts' ++ Token.mark ")" :: rest))).bind fun name =>
          ((parse (.assignment true) name.2).bind fun found =>
            (skip? (Token.mark ")") found.2).map fun more => (found.1, more)).bind fun found =>
              (parse .block found.2).map fun body =>
                (.forOf (.declaration (.text "const") [.declarator name.1 .absent]) found.1 body.1,
                  body.2) := by
      rw [parse_eq .statement, rule, Grammar.statement.eq_def, loopVariable]
      simp only [Option.bind_eq_bind, Option.bind_some, skip?_cons, Option.bind_assoc,
        Option.pure_def, Option.map_eq_bind, Function.comp_def]
    rw [htokens, hstatement, hloop]
    cases hname : loopVariable? ds with
    | none => simp [closed, hname]
    | some name =>
        obtain rfl := eq_of_loopVariable? hname
        simp only [Option.map_some, Option.bind_some, hread']
        by_cases hle : 2 ≤ right.precedence
        · simp [closed, hname, hle]
        · simp [closed, hname, hle]
  · rw [Node.isGrammatical, Node.isGrammatical, isLoopVariable_eq]
    rfl

/-! ### Choices -/

/-- What a choice consists of when its second branch is written behind the first. -/
def joinedBranch (first : Opened) : Option Opened → Opened
  | none => first
  | some second => ⟨first.lines ++ second.lines, second.last⟩

/-- What is written for the second branch of a choice is read as that branch. -/
structure SpellsElse (A : Alphabet) (indent : String) (alternate : Node) (ts : List Token) :
    Prop where
  flow : ∀ depth first us, Opens A indent first us →
    ∃ second, alternate.elseFlow depth (first.last ++ " else ") = .ok second ∧
      Opens A indent (joinedBranch first second) (us ++ ts)
  reads : ∀ rest, parse .otherwise (ts ++ Token.lineBreak :: rest) =
    if alternate.isGrammatical then some (alternate, Token.lineBreak :: rest) else none

theorem SpellsElse.absent : SpellsElse A indent .absent [] where
  flow depth first us h := ⟨none, rfl, by simpa [joinedBranch] using h⟩
  reads rest := by
    rw [List.nil_append, parse_eq .otherwise, rule, Grammar.otherwise.eq_def]
    rfl

/-- A second branch that goes on in the line where the first one ends. -/
theorem opens_joinedBranch {first : Opened} {us ts : List Token} {flow : String → Except PrintFault Opened}
    (hflow : ∀ head hs, A.Lexes head.toList hs Alphabet.anything →
      ∃ o, flow head = .ok o ∧ Opens A indent o (hs ++ ts)) (h : Opens A indent first us) :
    ∃ second, flow (first.last ++ " else ") = .ok second ∧
      Opens A indent (joinedBranch first (some second)) (us ++ Token.word "else" :: ts) := by
  obtain ⟨before, last, hbefore, hlast, rfl⟩ := h
  have hword : A.Lexes ("else" ++ " ").toList [Token.word "else"] Alphabet.anything :=
    lexes_keyword (by decide)
  have hhead : A.Lexes (first.last ++ " else ").toList (last ++ [Token.word "else"])
      Alphabet.anything := by
    have hall := hlast.append_any ((A.lexes_blank (c := ' ') (by decide)).append_any hword)
    simpa [String.toList_append] using hall
  obtain ⟨second, hsecond, before', last', hbefore', hlast', heq⟩ := hflow _ _ hhead
  refine ⟨second, hsecond, before ++ before', last', ?_, hlast', ?_⟩
  · simpa [joinedBranch, linesChars] using hbefore.append_any hbefore'
  · have hsplit : before ++ last ++ Token.word "else" :: ts =
        before ++ (last ++ [Token.word "else"] ++ ts) := by simp
    rw [hsplit, heq, List.append_assoc]

theorem SpellsElse.choice {only : Node} {t : Token} {ts : List Token}
    (h : SpellsStatement A indent only t ts) (hchoice : only.isChoice = true) :
    SpellsElse A indent (.block [only]) (Token.word "else" :: t :: ts) where
  flow depth first us hfirst := by
    obtain ⟨second, hsecond, hopens⟩ := opens_joinedBranch (h.flow depth) hfirst
    refine ⟨some second, ?_, hopens⟩
    rw [Node.elseFlow, if_pos hchoice, hsecond]
    · rfl
    · exact h.listed
  reads rest := by
    have ht := h.choice hchoice
    have hread := h.reads rest
    rw [ht] at hread ⊢
    rw [List.cons_append, parse_eq .otherwise, rule, Grammar.otherwise, skip?_cons]
    simp only
    rw [List.cons_append, skip?_cons]
    simp only
    rw [← List.cons_append, hread, Node.isGrammatical, Node.allGrammatical, Node.allGrammatical,
      Bool.and_true]
    cases only.isGrammatical <;> rfl

theorem elseFlow_block {body : List Node} (hlisted : ∀ s ∈ body, ∀ given, s ≠ .unlisted given)
    (hchoice : ∀ only, body = [only] → only.isChoice = false) (depth : Nat) (head : String) :
    (Node.block body).elseFlow depth head =
      ((linesEach (depth + 1) none body).map (bracketed depth head)).map some := by
  rw [Node.elseFlow.eq_def]
  split
  · rename_i heq
    simp at heq
  · rename_i heq
    obtain rfl := Node.block.inj heq
    exact (hlisted _ (List.mem_singleton_self _) _ rfl).elim
  · rename_i heq
    simp at heq
  · rename_i only _ heq
    obtain rfl := Node.block.inj heq
    rw [if_neg (by simp [hchoice only rfl]), linesEach_cons (hlisted only (by simp)), linesEach]
    cases hflow : only.flow (depth + 1) "" with
    | error => rfl
    | ok o => simp [separation, Except.map, bind, Except.bind, pure, Except.pure]
  · rename_i heq
    obtain rfl := Node.block.inj heq
    cases linesEach (depth + 1) none body <;> rfl
  all_goals first
    | exact (‹∀ b, Node.block body = Node.block b → False› body rfl).elim
    | rename_i heq
      simp at heq

theorem SpellsElse.block {body : List Node} {ts : List Token} (h : SpellsBlock A indent body ts)
    (hlisted : ∀ s ∈ body, ∀ given, s ≠ .unlisted given)
    (hchoice : ∀ only, body = [only] → only.isChoice = false) :
    SpellsElse A indent (.block body) (Token.word "else" :: Token.mark "\x7b" :: ts) where
  flow depth first us hfirst := by
    have hflow : ∀ head hs, A.Lexes head.toList hs Alphabet.anything →
        ∃ o, (linesEach (depth + 1) none body).map (bracketed depth head) = .ok o ∧
          Opens A indent o (hs ++ Token.mark "\x7b" :: ts) := by
      intro head hs hhead
      obtain ⟨lines, hlines, hopens⟩ := h.flow depth head hs hhead
      exact ⟨_, by rw [hlines]; rfl, hopens⟩
    obtain ⟨second, hsecond, hopens⟩ := opens_joinedBranch hflow hfirst
    refine ⟨some second, ?_, hopens⟩
    rw [elseFlow_block hlisted hchoice, hsecond]
    rfl
  reads rest := by
    rw [List.cons_append, parse_eq .otherwise, rule, Grammar.otherwise, skip?_cons]
    simp only
    rw [List.cons_append, skip?_cons_of_ne (by simp)]
    simp only
    rw [h.reads, Node.isGrammatical]

theorem else_spelled {body : List Node} (hindent : ∀ c ∈ indent.toList, isBlank c = true)
    (h : ∀ s ∈ body, ∃ t ts, SpellsStatement A indent s t ts) :
    ∃ ts, SpellsElse A indent (.block body) ts := by
  by_cases hchoice : ∃ only, body = [only] ∧ only.isChoice = true
  · obtain ⟨only, rfl, honly⟩ := hchoice
    obtain ⟨t, ts, hs⟩ := h only (by simp)
    exact ⟨_, SpellsElse.choice hs honly⟩
  · obtain ⟨ts, hblock⟩ := block_spelled hindent h
    refine ⟨_, SpellsElse.block hblock ?_ ?_⟩
    · intro s hs
      obtain ⟨t, us, hspells⟩ := h s hs
      exact hspells.listed
    · intro only honly
      rw [Bool.eq_false_iff]
      intro htrue
      exact hchoice ⟨only, honly, htrue⟩

theorem ifStatement_spelled {test alternate : Node} {consequent : List Node}
    (htest : IsExpression A test) (hw : test.isWritable = true)
    (hconsequent : ∃ bs, SpellsBlock A indent consequent bs)
    (halternate : ∃ us, SpellsElse A indent alternate us) :
    ∃ t ts, SpellsStatement A indent (.ifStatement test (.block consequent) alternate) t ts := by
  obtain ⟨text, ts, htext, hlex, hread⟩ := condition_spelled htest hw
  obtain ⟨bs, hblock⟩ := hconsequent
  obtain ⟨us, helse⟩ := halternate
  have hhead := lexes_head (by decide : Alphabet.isLetters "if" = true) hlex
  refine ⟨Token.word "if", Token.mark "(" :: (ts ++ Token.mark ")" :: Token.mark "\x7b" :: (bs ++ us)), ?_, ?_, by decide,
    fun _ => rfl, by simp⟩
  · intro depth head hs hprevious
    have hall : A.Lexes (head ++ "if (" ++ text ++ ") ").toList
        (hs ++ Token.word "if" :: Token.mark "(" :: (ts ++ [Token.mark ")"])) Alphabet.anything := by
      have htogether := hprevious.append_any hhead
      simpa [String.toList_append] using htogether
    obtain ⟨first, hfirst, hopens⟩ := hblock.blockFlow depth hall
    obtain ⟨second, hsecond, hjoined⟩ := helse.flow depth first _ hopens
    refine ⟨joinedBranch first second, ?_, by simpa using hjoined⟩
    rw [Node.flow, htext]
    simp only [bind, Except.bind, hfirst, hsecond]
    cases second <;> rfl
  · intro rest
    have htokens : Token.word "if" :: Token.mark "(" :: (ts ++ Token.mark ")" :: Token.mark "\x7b" :: (bs ++ us)) ++
        Token.lineBreak :: rest = Token.word "if" :: Token.mark "(" :: (ts ++ Token.mark ")" :: Token.mark "\x7b" ::
          (bs ++ (us ++ Token.lineBreak :: rest))) := by simp
    rw [htokens, parse_eq .statement, rule, Grammar.statement.eq_def, Node.isGrammatical,
      Node.isGrammatical]
    simp only [Option.bind_eq_bind]
    rw [hread, Option.bind_some, hblock.reads]
    cases Node.allGrammatical consequent with
    | false => rfl
    | true =>
        rw [if_pos rfl, Option.bind_some, helse.reads, Bool.true_and]
        cases alternate.isGrammatical <;> rfl

/-! ### Programs -/

/-- **A legal statement whose numbers are short enough is printed, and what is printed is read as
the statement exactly if it is grammatical.** -/
theorem statement_spelled (hindent : ∀ c ∈ indent.toList, isBlank c = true) {s : Node}
    (h : IsStatement A s) (hw : s.isWritable = true) : ∃ t ts, SpellsStatement A indent s t ts := by
  have hblock : ∀ {body : List Node}, (∀ s ∈ body, s.isWritable = true →
      ∃ t ts, SpellsStatement A indent s t ts) → (Node.block body).isWritable = true →
        ∀ s ∈ body, ∃ t ts, SpellsStatement A indent s t ts := by
    intro body ih hw s hs
    rw [Node.isWritable, eachWritable_eq_true] at hw
    exact ih s hs (hw s hs)
  induction h with
  | expressionStatement he =>
      rw [Node.isWritable] at hw
      exact expressionStatement_spelled he hw
  | block _ ih =>
      obtain ⟨ts, hspells⟩ := block_spelled hindent (hblock ih hw)
      exact ⟨_, _, SpellsStatement.block hspells⟩
  | returnStatement hargument =>
      rw [Node.isWritable] at hw
      exact returnStatement_spelled hargument hw
  | declaration hsome hdeclarators =>
      rw [Node.isWritable] at hw
      exact declaration_statement_spelled hsome hdeclarators hw
  | functionDeclaration hname hparams _ ih =>
      rw [Node.isWritable, Bool.and_eq_true, Bool.and_eq_true] at hw
      exact functionDeclaration_spelled hname hparams hw.1.2
        (block_spelled hindent (hblock ih hw.2))
  | ifStatement htest _ ih =>
      rw [Node.isWritable, Bool.and_eq_true, Bool.and_eq_true] at hw
      exact ifStatement_spelled htest hw.1.1 (block_spelled hindent (hblock ih hw.1.2))
        ⟨[], SpellsElse.absent⟩
  | ifElse htest _ _ ihc iha =>
      rw [Node.isWritable, Bool.and_eq_true, Bool.and_eq_true] at hw
      exact ifStatement_spelled htest hw.1.1 (block_spelled hindent (hblock ihc hw.1.2))
        (else_spelled hindent (hblock iha hw.2))
  | whileStatement htest _ ih =>
      rw [Node.isWritable, Bool.and_eq_true] at hw
      exact whileStatement_spelled htest hw.1 (block_spelled hindent (hblock ih hw.2))
  | forStatement hstart htest hupdate _ ih =>
      rw [Node.isWritable, Bool.and_eq_true, Bool.and_eq_true, Bool.and_eq_true] at hw
      exact forStatement_spelled hstart htest hupdate hw.1.1.1 hw.1.1.2 hw.1.2
        (block_spelled hindent (hblock ih hw.2))
  | forOf hsome hdeclarators hright _ ih =>
      rw [Node.isWritable, Bool.and_eq_true, Bool.and_eq_true, Node.isWritable] at hw
      exact forOf_spelled hsome hdeclarators hright hw.1.1 hw.1.2
        (block_spelled hindent (hblock ih hw.2))

/-- Lines with line breaks between them and one behind the last. -/
theorem intercalate_lines {lines : List Line} (h : lines ≠ []) :
    ("\n".intercalate (lines.map (Line.render indent)) ++ "\n").toList = linesChars indent lines := by
  induction lines with
  | nil => exact absurd rfl h
  | cons l lines ih =>
      by_cases hmore : lines = []
      · subst hmore
        simp [linesChars, String.toList_append]
      · have hcons : linesChars indent (l :: lines) =
            (l.render indent).toList ++ '\n' :: linesChars indent lines := by
          simp [linesChars]
        rw [hcons, ← ih hmore, List.map_cons,
          String.intercalate_cons_of_ne_nil (by simpa using hmore)]
        simp [String.toList_append]

theorem print_program {body : List Node} (h : ∀ given, body ≠ [.unlisted given]) :
    (Node.program body).print indent = (linesEach 0 none body).map fun lines =>
      "\n".intercalate (lines.map (Line.render indent)) ++ (if body.isEmpty then "" else "\n") := by
  rw [Node.print.eq_def]
  split
  · rename_i heq
    simp at heq
  · rename_i heq
    simp at heq
  · rename_i given heq
    exact (h given (Node.program.inj heq)).elim
  · rename_i heq
    obtain rfl := Node.program.inj heq
    cases linesEach 0 none body <;> rfl
  · exact (‹∀ b, Node.program body = Node.program b → False› body rfl).elim

/-- What is printed for a program whose numbers are short enough, and what it is read as. -/
theorem program_spelled (A : Alphabet) (rules : Node → Bool) (indent : String)
    (hindent : ∀ c ∈ indent.toList, isBlank c = true)
    {body : List Node} (h : ∀ s ∈ body, IsStatement A s) (hw : eachWritable body = true) :
    ∃ text, (Node.program body).print indent = .ok text ∧
      A.read rules text = if Node.allGrammatical body && rules (.program body) then
        some (.program body) else none := by
  rw [eachWritable_eq_true] at hw
  have hstatements : ∀ s ∈ body, ∃ t ts, SpellsStatement A indent s t ts :=
    fun s hs => statement_spelled hindent (h s hs) (hw s hs)
  obtain ⟨ts, hbody⟩ := body_spelled hindent hstatements none
  obtain ⟨lines, hlines, hnil, hlex⟩ := hbody.lines 0
  have hlisted : ∀ given, body ≠ [.unlisted given] := by
    rintro given rfl
    obtain ⟨t, us, hs⟩ := hstatements _ (List.mem_singleton_self _)
    exact hs.listed given rfl
  refine ⟨_, by rw [print_program hlisted, hlines]; rfl, ?_⟩
  have hchars : ("\n".intercalate (lines.map (Line.render indent)) ++
      (if body.isEmpty then "" else "\n")).toList = linesChars indent lines := by
    by_cases hempty : body = []
    · rw [hnil.mpr hempty, hempty]
      rfl
    · have hsome : lines ≠ [] := fun heq => hempty (hnil.mp heq)
      rw [if_neg (by simpa using hempty), intercalate_lines hsome]
  have htokens : A.lex (linesChars indent lines) = some ts := by
    have hall := hlex.lex_eq []
    simpa [Alphabet.lex] using hall
  rw [Alphabet.read, hchars, htokens, Option.bind_some, Grammar.program]
  have hread := hbody.reads [] (Or.inl rfl)
  rw [List.append_nil] at hread
  rw [hread]
  cases Node.allGrammatical body with
  | false => rfl
  | true => cases hrules : rules (.program body) <;> simp [hrules]

/-- **A printed program is read as the same program exactly if it is grammatical**, given that the
rules on top of the grammar allow it.  Otherwise it is not read at all.  A program with a number
that is too long to be written is not printed. -/
theorem read_print (A : Alphabet) (rules : Node → Bool) (indent : String)
    (hindent : ∀ c ∈ indent.toList, isBlank c = true) (body : List Node)
    (h : ∀ s ∈ body, IsStatement A s) :
    if (Node.program body).isWritable then
      ∃ text, (Node.program body).print indent = .ok text ∧
        A.read rules text = if (Node.program body).isGrammatical && rules (.program body) then
          some (.program body) else none
    else (Node.program body).print indent = .error .tooManyDigits := by
  cases hw : (Node.program body).isWritable with
  | true =>
      rw [Node.isWritable] at hw
      rw [if_pos rfl, Node.isGrammatical]
      exact program_spelled A rules indent hindent h hw
  | false =>
      rw [if_neg (by decide)]
      have hprints := prints_program indent h
      rw [hw] at hprints
      exact hprints.eq_error

/-- A name of one letter. -/
theorem isVariable_letter {name : String} {c : Char} (hname : name.toList = [c])
    (hc : Alphabet.ascii.begins c = true) : Alphabet.ascii.IsVariable name := by
  refine ⟨⟨c, [], hname, hc, by simp⟩, ?_⟩
  intro hmem
  have hall : ∀ w ∈ reservedWords, w.toList.length ≠ 1 := by decide
  exact hall name hmem (by rw [hname]; rfl)

/-- The question whether `a` is a member of `b`. -/
def membership : Node := .binary (.text "in") (.identifier (.text "a")) (.identifier (.text "b"))

theorem isExpression_membership : IsExpression Alphabet.ascii membership :=
  .binary (by decide : ("in", 10) ∈ Precedence.table) (by decide)
    (.identifier (isVariable_letter rfl (by decide)))
    (.identifier (isVariable_letter rfl (by decide)))

/-- A counting loop that does nothing. -/
def emptyLoop (start : Node) : Node := .forStatement start .absent .absent (.block [])

theorem isStatement_emptyLoop {start : Node} (h : IsExpression Alphabet.ascii start) :
    ∀ s ∈ [emptyLoop start], IsStatement Alphabet.ascii s := by
  intro s hs
  obtain rfl := List.mem_singleton.mp hs
  exact .forStatement (Or.inr h) (Or.inl rfl) (Or.inl rfl) (by simp)

/-- Every tree is allowed. -/
def anyTree (_ : Node) : Bool := true

/-- In the brackets of an array the operator `in` does no harm. -/
theorem read_print_bracketed_in :
    ∃ text, (Node.program [emptyLoop (.arrayExpression [membership])]).print "  " = .ok text ∧
      Alphabet.ascii.read anyTree text =
        some (.program [emptyLoop (.arrayExpression [membership])]) := by
  have hblank : ∀ c ∈ "  ".toList, isBlank c = true := List.all_eq_true.mp (by decide)
  have hlegal := isStatement_emptyLoop
    (.arrayExpression (List.forall_mem_singleton.mpr isExpression_membership))
  have hread := read_print Alphabet.ascii anyTree "  " hblank _ hlegal
  rwa [if_pos (by decide)] at hread

/-- Without them it is printed without any, and the text is no program. -/
theorem print_open_in_not_read :
    (∀ s ∈ [emptyLoop membership], IsStatement Alphabet.ascii s) ∧
      (Node.program [emptyLoop membership]).print "  " = .ok "for (a in b;;) \x7b\x7d\n" ∧
      ∀ rules, Alphabet.ascii.read rules "for (a in b;;) \x7b\x7d\n" = none := by
  have hprint : (Node.program [emptyLoop membership]).print "  " =
      .ok "for (a in b;;) \x7b\x7d\n" := by rfl
  have hlegal := isStatement_emptyLoop isExpression_membership
  have hblank : ∀ c ∈ "  ".toList, isBlank c = true := List.all_eq_true.mp (by decide)
  refine ⟨hlegal, hprint, fun rules => ?_⟩
  obtain ⟨text, htext, hread⟩ := program_spelled Alphabet.ascii rules "  " hblank hlegal rfl
  rw [hprint] at htext
  obtain rfl := Except.ok.inj htext
  exact hread

end PhpMigration.JavaScript
