/-
The text around each frame.

The text of a frame is the text of its other parts, with the operators, brackets and commas that
belong to them.  Each of these parts is a piece that is read by itself, so what stands before the
missing part is read up to its end, and what stands behind it begins with a mark
(`Frame.hasSetting`).
-/
import PhpMigration.Proofs.JavaScript.Frame

namespace PhpMigration.JavaScript

open Lexer Grammar

variable {A : Alphabet}

/-! ### Lists -/

theorem lexes_comma : A.Lexes ", ".toList [Token.mark ","] Alphabet.anything := by
  have hcomma := A.lexes_solitary (m := ",") (by decide)
  exact hcomma.append_any (A.lexes_blank (c := ' ') (by decide))

/-- Some texts with a comma behind each. -/
def leading (texts : List String) : String := String.join (texts.map (· ++ ", "))

/-- Some texts with a comma before each. -/
def trailing (texts : List String) : String := String.join (texts.map (", " ++ ·))

theorem leading_cons (first : String) (texts : List String) :
    leading (first :: texts) = first ++ ", " ++ leading texts := by
  simp [leading]

theorem trailing_cons (first : String) (texts : List String) :
    trailing (first :: texts) = ", " ++ first ++ trailing texts := by
  simp [trailing]

theorem intercalate_cons (text : String) (after : List String) :
    ", ".intercalate (text :: after) = text ++ trailing after := by
  induction after generalizing text with
  | nil => simp [trailing, String.intercalate_singleton]
  | cons first after ih =>
      rw [String.intercalate_cons_of_ne_nil (by simp), ih, trailing_cons]
      simp [String.append_assoc]

theorem intercalate_around (before after : List String) (text : String) :
    ", ".intercalate (before ++ text :: after) = leading before ++ text ++ trailing after := by
  induction before with
  | nil => simp [leading, intercalate_cons]
  | cons first before ih =>
      rw [List.cons_append, String.intercalate_cons_of_ne_nil (by simp), ih, leading_cons]
      simp [String.append_assoc]

theorem exists_lexes_leading {texts : List String} (h : ∀ s ∈ texts, HasTokens A s) :
    ∃ ts, A.Lexes (leading texts).toList ts Alphabet.anything := by
  induction texts with
  | nil => exact ⟨[], Alphabet.Lexes.nil⟩
  | cons first texts ih =>
      obtain ⟨ts, hts⟩ := h first (by simp)
      obtain ⟨us, hus⟩ := ih fun s hs => h s (by simp [hs])
      have hfirst : A.Lexes (first ++ ", ").toList (ts ++ [Token.mark ","]) Alphabet.anything := by
        rw [String.toList_append]
        refine hts.append lexes_comma (by decide) ?_
        intro c hc
        obtain rfl := Option.some.inj hc
        exact endsOperand_of_isDelimiter (by decide)
      refine ⟨ts ++ [Token.mark ","] ++ us, ?_⟩
      rw [leading_cons, String.toList_append]
      exact hfirst.append_any hus

theorem closes_trailing (texts : List String) : Closes false (trailing texts).toList := by
  cases texts with
  | nil => exact .inl rfl
  | cons first texts =>
      rw [trailing_cons]
      show Closes false ("," ++ " " ++ first ++ trailing texts).toList
      rw [String.append_assoc, String.append_assoc]
      exact .of_text (by decide) _

theorem exists_lexes_trailing {texts : List String} (h : ∀ s ∈ texts, HasTokens A s) :
    ∃ ts, A.Lexes (trailing texts).toList ts A.EndsOperand := by
  induction texts with
  | nil => exact ⟨[], Alphabet.Lexes.nil.mono fun _ _ => trivial⟩
  | cons first texts ih =>
      obtain ⟨ts, hts⟩ := h first (by simp)
      obtain ⟨us, hus⟩ := ih fun s hs => h s (by simp [hs])
      have hrest : A.Lexes (first.toList ++ (trailing texts).toList) (ts ++ us) A.EndsOperand := by
        refine hts.followed hus ?_ fun _ _ hc => hc
        intro c hc
        exact (closes_trailing texts).endsOperand hc
      refine ⟨[Token.mark ","] ++ (ts ++ us), ?_⟩
      rw [trailing_cons, String.append_assoc, String.toList_append, String.toList_append]
      exact lexes_comma.append_any hrest

theorem head?_leading {texts : List String}
    (h : ∀ s ∈ texts, s.toList.head? ≠ some '=') : (leading texts).toList.head? ≠ some '=' := by
  cases texts with
  | nil => simp [leading]
  | cons first texts =>
      have hfirst := h first (by simp)
      cases hhead : first.toList with
      | nil => simp [leading, String.toList_append, hhead]
      | cons c cs =>
          rw [hhead] at hfirst
          simpa [leading, String.toList_append, hhead] using hfirst

/-! ### Lists of expressions -/

theorem exists_renderedEach {es : List Node} (h : ∀ e ∈ es, IsPiece A e) :
    ∃ rs, renderedEach es = .ok rs ∧ ∀ r ∈ rs, r.IsOperand ∧ HasTokens A r.text := by
  induction es with
  | nil => exact ⟨[], rfl, by simp⟩
  | cons e es ih =>
      obtain ⟨r, hr, hpiece⟩ := h e (by simp)
      obtain ⟨rs, hrs, hall⟩ := ih fun e' he' => h e' (by simp [he'])
      refine ⟨r :: rs, renderedEach_cons e es r rs hr hrs, ?_⟩
      intro s hs
      rcases List.mem_cons.mp hs with rfl | hs
      · exact hpiece
      · exact hall s hs

theorem renderedEach_around {before after : List Node} {e : Node} {r : Rendered}
    {rs ss : List Rendered} (hrs : renderedEach before = .ok rs) (he : e.rendered = .ok r)
    (hss : renderedEach after = .ok ss) :
    renderedEach (before ++ e :: after) = .ok (rs ++ r :: ss) := by
  induction before generalizing rs with
  | nil =>
      obtain rfl : [] = rs := Except.ok.inj hrs
      exact renderedEach_cons e after r ss he hss
  | cons first before ih =>
      rw [renderedEach] at hrs
      cases hfirst : first.rendered with
      | error fault => simp [hfirst, bind, Except.bind] at hrs
      | ok s =>
          cases hbefore : renderedEach before with
          | error fault => simp [hfirst, hbefore, bind, Except.bind] at hrs
          | ok rs' =>
              simp only [hfirst, hbefore, bind, Except.bind, pure, Except.pure,
                Except.ok.injEq] at hrs
              rw [← hrs]
              exact renderedEach_cons first _ s _ hfirst (ih hbefore)

/-- The list of some expressions around a part. -/
structure ListSetting (A : Alphabet) (before after : List Node) (lead trail : String)
    (ts us : List Token) : Prop where
  lexes_lead : A.Lexes lead.toList ts Alphabet.anything
  lexes_trail : A.Lexes trail.toList us A.EndsOperand
  not_equals : lead.toList.head? ≠ some '='
  closes : Closes false trail.toList
  fills : ∀ {e r}, e.rendered = .ok r → r.IsOperand →
    ∃ rs, renderedEach (before ++ e :: after) = .ok rs ∧
      Rendered.commaList Precedence.assignment rs =
        .ok (lead ++ r.within Precedence.assignment ++ trail)

namespace ListSetting

variable {before after : List Node} {lead trail b : String} {ts us : List Token}

theorem closes_bracket (h : ListSetting A before after lead trail ts us) (hb : b ∈ boundaries) :
    Closes false (trail ++ b).toList := by
  rw [String.toList_append]
  by_cases hnil : trail.toList = []
  · rw [hnil, List.nil_append, ← List.append_nil b.toList]
    exact .of_boundary hb []
  · exact h.closes.append hnil _

theorem lexes_bracket (h : ListSetting A before after lead trail ts us) (hb : b ∈ [")", "]"]) :
    A.Lexes (trail ++ b).toList (us ++ [Token.mark b]) Alphabet.anything := by
  have hall : ∀ m ∈ [")", "]"], m ∈ Alphabet.solitaryMarks ∧ m.toList ≠ [] ∧
      m.toList.head?.all isDelimiter = true := by decide
  obtain ⟨hmark, hne, hdelimiter⟩ := hall b hb
  rw [String.toList_append]
  refine h.lexes_trail.append (A.lexes_solitary hmark) hne ?_
  intro c hc
  exact endsOperand_of_isDelimiter (by simpa [hc] using hdelimiter)

end ListSetting

theorem exists_listSetting {before after : List Node} (h : ∀ e ∈ before ++ after, IsPiece A e) :
    ∃ lead trail ts us, ListSetting A before after lead trail ts us := by
  obtain ⟨rs, hrs, hbefore⟩ := @exists_renderedEach A before fun e he => h e (by simp [he])
  obtain ⟨ss, hss, hafter⟩ := @exists_renderedEach A after fun e he => h e (by simp [he])
  have htokens : ∀ qs : List Rendered, (∀ r ∈ qs, r.IsOperand ∧ HasTokens A r.text) →
      ∀ s ∈ qs.map (Rendered.within Precedence.assignment), HasTokens A s := by
    intro qs hqs s hs
    obtain ⟨r, hr, rfl⟩ := List.mem_map.mp hs
    exact (hqs r hr).2.within _
  obtain ⟨ts, hts⟩ := exists_lexes_leading (htokens rs hbefore)
  obtain ⟨us, hus⟩ := exists_lexes_trailing (htokens ss hafter)
  refine ⟨_, _, ts, us, hts, hus, head?_leading ?_, closes_trailing _, ?_⟩
  · intro s hs
    obtain ⟨r, hr, rfl⟩ := List.mem_map.mp hs
    exact (hbefore r hr).1.within_ne_equals _
  · intro e r he hr
    refine ⟨rs ++ r :: ss, renderedEach_around hrs he hss, ?_⟩
    rw [Rendered.commaList_eq, List.map_append, List.map_cons, intercalate_around]
    intro s hs
    rcases List.mem_append.mp hs with hs | hs
    · exact (hbefore s hs).1.isText
    rcases List.mem_cons.mp hs with rfl | hs
    · exact hr.isText
    · exact (hafter s hs).1.isText

/-- The text of a list. -/
theorem exists_commaList {es : List Node} (h : ∀ e ∈ es, IsPiece A e) :
    ∃ rs text, renderedEach es = .ok rs ∧
      Rendered.commaList Precedence.assignment rs = .ok text ∧ HasTokens A text := by
  cases es with
  | nil => exact ⟨[], "", rfl, rfl, [], Alphabet.Lexes.nil.mono fun _ _ => trivial⟩
  | cons e es =>
      obtain ⟨r, hr, hop, hpiece⟩ := h e (by simp)
      obtain ⟨lead, trail, ts, us, hlist⟩ :=
        @exists_listSetting A [] es fun e' he' => h e' (List.mem_cons_of_mem e he')
      obtain ⟨rs, hrs, htext⟩ := hlist.fills hr hop
      obtain ⟨vs, hvs⟩ := hpiece.within Precedence.assignment
      refine ⟨rs, _, hrs, htext, ts ++ (vs ++ us), ?_⟩
      rw [String.append_assoc, String.toList_append, String.toList_append]
      refine hlist.lexes_lead.append_any (hvs.followed hlist.lexes_trail ?_ fun _ _ hc => hc)
      intro c hc
      exact hlist.closes.endsOperand hc

/-! ### Lists of properties -/

theorem lexes_colon : A.Lexes ": ".toList [Token.mark ":"] Alphabet.anything := by
  have hcolon := A.lexes_solitary (m := ":") (by decide)
  exact hcolon.append_any (A.lexes_blank (c := ' ') (by decide))

theorem hasTokens_keyText {r : Rendered} (h : HasTokens A r.text) (computed : Bool) :
    HasTokens A (keyText r computed) := by
  have hwithin := h.within 2
  cases computed with
  | false => exact hwithin
  | true =>
      obtain ⟨ts, hts⟩ := hwithin.lexes_parenthesized (by decide : ("[", "]") ∈ brackets)
      exact ⟨ts, hts.mono fun _ _ => trivial⟩

theorem propertyText_eq (key value : Rendered) (computed : Bool) :
    Rendered.propertyText key value computed =
      keyText key computed ++ ": " ++ value.within Precedence.assignment :=
  rfl

/-- A key with a colon behind it. -/
theorem exists_lexes_key {r : Rendered} (h : HasTokens A r.text) (computed : Bool) :
    ∃ ts, A.Lexes (keyText r computed ++ ": ").toList ts Alphabet.anything := by
  obtain ⟨ts, hts⟩ := hasTokens_keyText h computed
  refine ⟨ts ++ [Token.mark ":"], ?_⟩
  rw [String.toList_append]
  refine hts.append lexes_colon (by decide) ?_
  intro c hc
  obtain rfl := Option.some.inj hc
  exact endsOperand_of_isDelimiter (by decide)

theorem hasTokens_propertyText {key value : Rendered} (hkey : HasTokens A key.text)
    (hvalue : HasTokens A value.text) (computed : Bool) :
    HasTokens A (Rendered.propertyText key value computed) := by
  obtain ⟨ts, hts⟩ := exists_lexes_key hkey computed
  obtain ⟨us, hus⟩ := hvalue.within Precedence.assignment
  refine ⟨ts ++ us, ?_⟩
  rw [propertyText_eq, String.toList_append]
  exact hts.append_any hus

theorem propertyText_head {key value : Rendered} (hkey : key.IsOperand) (computed : Bool) :
    (Rendered.propertyText key value computed).toList.head? ≠ some '=' := by
  have hhead : (keyText key computed).toList.head? ≠ some '=' ∧
      (keyText key computed).toList ≠ [] := by
    cases computed with
    | false => exact ⟨hkey.within_ne_equals 2, hkey.within_ne_nil 2⟩
    | true => simp [keyText, String.toList_append]
  obtain ⟨c, cs, hcs⟩ := List.exists_cons_of_ne_nil hhead.2
  rw [hcs] at hhead
  simpa [propertyText_eq, String.toList_append, hcs] using hhead.1

theorem exists_propertyTexts {ps : List Property}
    (h : ∀ p ∈ ps, IsPiece A p.key ∧ IsPiece A p.value) :
    ∃ texts, propertyTexts (ps.map Property.toNode) = .ok texts ∧
      ∀ s ∈ texts, HasTokens A s ∧ s.toList.head? ≠ some '=' := by
  induction ps with
  | nil => exact ⟨[], rfl, by simp⟩
  | cons p ps ih =>
      obtain ⟨⟨rk, hrk, hkop, hkey⟩, rv, hrv, -, hvalue⟩ := h p (by simp)
      obtain ⟨texts, htexts, hall⟩ := ih fun q hq => h q (by simp [hq])
      refine ⟨Rendered.propertyText rk rv p.computed :: texts, ?_, ?_⟩
      · simp [Property.toNode, propertyTexts, hrk, hrv, htexts, bind, Except.bind, pure, Except.pure]
      · intro s hs
        rcases List.mem_cons.mp hs with rfl | hs
        · exact ⟨hasTokens_propertyText hkey hvalue p.computed, propertyText_head hkop p.computed⟩
        · exact hall s hs

theorem propertyTexts_around {before after : List Property} {key value : Node} {computed : Bool}
    {rk rv : Rendered} {texts texts' : List String}
    (hbefore : propertyTexts (before.map Property.toNode) = .ok texts) (hkey : key.rendered = .ok rk)
    (hvalue : value.rendered = .ok rv)
    (hafter : propertyTexts (after.map Property.toNode) = .ok texts') :
    propertyTexts (before.map Property.toNode ++ .objectProperty key value computed ::
      after.map Property.toNode) =
        .ok (texts ++ Rendered.propertyText rk rv computed :: texts') := by
  induction before generalizing texts with
  | nil =>
      obtain rfl : [] = texts := Except.ok.inj hbefore
      simp [propertyTexts, hkey, hvalue, hafter, bind, Except.bind, pure, Except.pure]
  | cons p before ih =>
      rw [List.map_cons, Property.toNode, propertyTexts] at hbefore
      cases hk : p.key.rendered with
      | error fault => simp [hk, bind, Except.bind] at hbefore
      | ok r =>
          cases hv : p.value.rendered with
          | error fault => simp [hk, hv, bind, Except.bind] at hbefore
          | ok r' =>
              cases hmore : propertyTexts (before.map Property.toNode) with
              | error fault => simp [hk, hv, hmore, bind, Except.bind] at hbefore
              | ok more =>
                  simp only [hk, hv, hmore, bind, Except.bind, pure, Except.pure,
                    Except.ok.injEq] at hbefore
                  rw [List.map_cons, List.cons_append, Property.toNode, propertyTexts]
                  simp [hk, hv, ih hmore, ← hbefore, bind, Except.bind, pure, Except.pure]

/-- The properties of an object around one of them. -/
structure PropertySetting (A : Alphabet) (before after : List Property) (lead trail : String)
    (ts us : List Token) : Prop where
  lexes_lead : A.Lexes lead.toList ts Alphabet.anything
  lexes_trail : A.Lexes trail.toList us Alphabet.anything
  brace : lead.toList.head? = some '\x7b'
  closes : Closes false trail.toList
  not_empty : trail.toList ≠ []
  fills : ∀ {key value : Node} {rk rv : Rendered} {computed : Bool}, key.rendered = .ok rk →
    value.rendered = .ok rv →
      (Node.objectExpression (before.map Property.toNode ++ .objectProperty key value computed ::
        after.map Property.toNode)).rendered =
          .ok (.atom (lead ++ Rendered.propertyText rk rv computed ++ trail))

theorem exists_propertySetting {before after : List Property}
    (h : ∀ p ∈ before ++ after, IsPiece A p.key ∧ IsPiece A p.value) :
    ∃ lead trail ts us, PropertySetting A before after lead trail ts us := by
  obtain ⟨texts, htexts, hbefore⟩ := @exists_propertyTexts A before fun p hp => h p (by simp [hp])
  obtain ⟨texts', htexts', hafter⟩ := @exists_propertyTexts A after fun p hp => h p (by simp [hp])
  obtain ⟨ts, hts⟩ := exists_lexes_leading fun s hs => (hbefore s hs).1
  obtain ⟨us, hus⟩ := exists_lexes_trailing fun s hs => (hafter s hs).1
  have hblank : A.Lexes [' '] [] Alphabet.anything := A.lexes_blank (by decide)
  have hopen : A.Lexes ['\x7b'] [Token.mark "\x7b"] Alphabet.anything :=
    A.lexes_solitary (m := "\x7b") (by decide)
  have hclose : A.Lexes ['\x7d'] [Token.mark "\x7d"] Alphabet.anything :=
    A.lexes_solitary (m := "\x7d") (by decide)
  refine ⟨"\x7b " ++ leading texts, trailing texts' ++ " \x7d", [Token.mark "\x7b"] ++ ts,
    us ++ [Token.mark "\x7d"], ?_, ?_, by simp [String.toList_append], ?_,
    by simp [String.toList_append], ?_⟩
  · have hall := hopen.append_any (hblank.append_any hts)
    simpa [String.toList_append] using hall
  · have hall := hus.append (hblank.append_any hclose) (by simp) fun c hc => by
      obtain rfl := Option.some.inj hc
      exact endsOperand_of_isDelimiter (by decide)
    simpa [String.toList_append] using hall
  · rw [String.toList_append]
    by_cases hnil : (trailing texts').toList = []
    · rw [hnil]
      exact .of_boundary (m := " ") (by decide) ['\x7d']
    · exact (closes_trailing texts').append hnil _
  · intro key value rk rv computed hkey hvalue
    rw [Node.rendered, propertyTexts_around htexts hkey hvalue htexts']
    simp only [bind, Except.bind, pure, Except.pure, Rendered.ofProperties]
    rw [if_neg (by simp), intercalate_around]
    simp [String.append_assoc]

/-! ### The frames -/

theorem ofBinary_between (operator : String) :
    1 ≤ Precedence.ofBinary (.text operator) ∧ Precedence.ofBinary (.text operator) < 18 := by
  have hall : ∀ p ∈ Precedence.table, 1 ≤ p.2 ∧ p.2 < 18 := by decide
  show 1 ≤ (Precedence.table.lookup operator).getD 13 ∧ (Precedence.table.lookup operator).getD 13 < 18
  cases hlookup : Precedence.table.lookup operator with
  | none => decide
  | some level =>
      obtain ⟨before, after, hsplit, -⟩ := List.lookup_eq_some_iff.mp hlookup
      exact hall (operator, level) (by rw [hsplit]; simp)

theorem rendered_joint {logical : Bool} {operator : String} {left right : Node} {rl rr : Rendered}
    (hl : left.rendered = .ok rl) (hr : right.rendered = .ok rr) :
    (joint logical operator left right).rendered = .ok (.ofBinary (.text operator) rl rr) := by
  cases logical with
  | false =>
      rw [joint, if_neg (by decide), Node.rendered, hl, hr]
      rfl
  | true =>
      rw [joint, if_pos rfl, Node.rendered, hl, hr]
      rfl

theorem shown_text (s : String) : (Value.text s).shown = s :=
  rfl

namespace Frame

variable {operator : String}

theorem one_le_level (f : Frame) : 1 ≤ f.level := by
  cases f with
  | left _ operator _ => exact (ofBinary_between operator).1
  | right _ operator _ => exact (ofBinary_between operator).1
  | update _ before => cases before <;> exact Nat.succ_pos _
  | _ => exact Nat.succ_pos _

/-- What has to be known of a frame. -/
def HasSetting (A : Alphabet) (f : Frame) : Prop :=
  ∃ before after trail, Setting A f.fill f.least f.level f.isPointed before after trail

theorem hasSetting_unary (h : operator ∈ unaryOperators) : (unary operator).HasSetting A := by
  have hall : ∀ s ∈ unaryOperators, s.toList ≠ [] ∧ s.toList.head? ≠ some '=' := by decide
  obtain ⟨hne, hequals⟩ := hall operator h
  refine ⟨[operatorToken operator], [], [], (by decide : 1 ≤ 15),
    Alphabet.Lexes.nil.mono fun _ _ => trivial, .inl rfl, fun _ => (by decide : 15 < 18), ?_⟩
  intro e r he hr
  refine ⟨(operator ++ Rendered.separator operator (r.within 15)).toList,
    ⟨operator ++ Rendered.separator operator (r.within 15) ++ r.within 15, 15, true⟩, ?_, rfl,
    ⟨rfl, (by decide : 1 ≤ 15), ?_, ?_⟩, ?_, lexes_before_operand h (hr.within_ne_equals 15)⟩
  · rw [fill, Node.rendered, he]
    simp only [bind, Except.bind, Rendered.ofUnary, hr.isText]
    rfl
  · simp [String.toList_append, hne]
  · obtain ⟨c, cs, hcs⟩ := List.exists_cons_of_ne_nil hne
    rw [hcs] at hequals
    simpa [String.toList_append, hcs] using hequals
  · simp [String.toList_append, least, Precedence.unary]

theorem hasSetting_update (h : operator ∈ updateOperators) (before : Bool) :
    (update operator before).HasSetting A := by
  have hall : ∀ s ∈ updateOperators, s.toList ≠ [] ∧ s.toList.head? ≠ some '=' ∧
      s ∈ boundaries := by decide
  obtain ⟨hne, hequals, hboundary⟩ := hall operator h
  cases before with
  | true =>
      refine ⟨[Token.mark operator], [], _, .of_fixed operator "" (one_le_level _)
        (lexes_update h) hequals (Alphabet.Lexes.nil.mono fun _ _ => trivial) (.inl rfl)
        (fun _ => (by decide : 15 < 18)) ?_⟩
      intro e r he hr
      rw [fill, Node.rendered, he]
      simp [bind, Except.bind, Rendered.ofUpdate, hr.textWithin, pure, Except.pure, least, level]
  | false =>
      refine ⟨[], [Token.mark operator], _, .of_fixed "" operator (one_le_level _)
        Alphabet.Lexes.nil (by simp) ((lexes_update h).mono fun _ _ => trivial) ?_
        (fun hnil => absurd hnil hne) ?_⟩
      · have hcloses : Closes false (operator.toList ++ []) := .of_boundary hboundary []
        rwa [List.append_nil] at hcloses
      · intro e r he hr
        rw [fill, Node.rendered, he]
        simp [bind, Except.bind, Rendered.ofUpdate, hr.textWithin, pure, Except.pure, least, level]

theorem hasSetting_left {other : Node} (logical : Bool) (hoperator : IsSymbol operator)
    (h : IsPiece A other) : (left logical operator other).HasSetting A := by
  obtain ⟨s, hs, -, htext⟩ := h
  obtain ⟨hbinds, hlow⟩ := ofBinary_between operator
  refine Setting.before_operator hoperator
    (htext.within (Precedence.ofBinary (.text operator) + 1)) hbinds hlow ?_
  intro e r he hr
  rw [fill, rendered_joint he hs]
  simp [Rendered.ofBinary, shown_text, least, level, String.append_assoc]

theorem hasSetting_right {other : Node} (logical : Bool) (hoperator : IsSymbol operator)
    (h : IsPiece A other) : (right logical operator other).HasSetting A := by
  obtain ⟨s, hs, hop, htext⟩ := h
  obtain ⟨hbinds, hlow⟩ := ofBinary_between operator
  refine Setting.behind_operator hoperator (htext.within (Precedence.ofBinary (.text operator)))
    (hop.within_ne_equals _) hbinds hlow ?_
  intro e r he hr
  rw [fill, rendered_joint hs he]
  simp [Rendered.ofBinary, shown_text, least, level, String.append_assoc]

theorem hasSetting_target {other : Node} (hoperator : IsSymbol operator) (h : IsPiece A other) :
    (target operator other).HasSetting A := by
  obtain ⟨s, hs, -, htext⟩ := h
  refine Setting.before_operator hoperator (htext.within Precedence.assignment) (one_le_level _)
    (show 2 < 18 by decide) ?_
  intro e r he hr
  rw [fill, Node.rendered, he, hs]
  simp [bind, Except.bind, pure, Except.pure, Rendered.ofAssignment, shown_text, least, level,
    String.append_assoc]

theorem hasSetting_assigned {other : Node} (hoperator : IsSymbol operator) (h : IsPiece A other) :
    (assigned operator other).HasSetting A := by
  obtain ⟨s, hs, hop, htext⟩ := h
  refine Setting.behind_operator hoperator (htext.within Precedence.member) (hop.within_ne_equals _)
    (one_le_level _) (show 2 < 18 by decide) ?_
  intro e r he hr
  rw [fill, Node.rendered, hs, he]
  simp [bind, Except.bind, pure, Except.pure, Rendered.ofAssignment, shown_text, least, level,
    String.append_assoc]

theorem rendered_conditional {test consequent alternate : Node} {rt rc ra : Rendered}
    (ht : test.rendered = .ok rt) (hc : consequent.rendered = .ok rc)
    (ha : alternate.rendered = .ok ra) :
    (Node.conditional test consequent alternate).rendered = .ok (.ofConditional rt rc ra) := by
  rw [Node.rendered, ht, hc, ha]
  rfl

theorem ofConditional_eq (rt rc ra : Rendered) :
    Rendered.ofConditional rt rc ra = ⟨rt.within 4 ++ (" " ++ "?" ++ " ") ++ rc.within 2 ++
      (" " ++ ":" ++ " ") ++ ra.within 2, 3, true⟩ :=
  rfl

theorem isSymbol_question : IsSymbol "?" := .inr (by decide)

theorem isSymbol_colon : IsSymbol ":" := .inr (by decide)

theorem hasSetting_test {consequent alternate : Node} (hc : IsPiece A consequent)
    (ha : IsPiece A alternate) : (test consequent alternate).HasSetting A := by
  obtain ⟨rc, hrc, -, hctext⟩ := hc
  obtain ⟨ra, hra, -, hatext⟩ := ha
  refine Setting.before_operator isSymbol_question
    ((hctext.within 2).spaced (hatext.within 2) isSymbol_colon) (one_le_level _)
    (show 3 < 18 by decide) ?_
  intro e r he hr
  rw [fill, rendered_conditional he hrc hra, ofConditional_eq]
  simp [least, level, Precedence.conditional, String.append_assoc]

theorem hasSetting_consequent {test alternate : Node} (ht : IsPiece A test)
    (ha : IsPiece A alternate) : (consequent test alternate).HasSetting A := by
  obtain ⟨rt, hrt, hop, httext⟩ := ht
  obtain ⟨ra, hra, -, hatext⟩ := ha
  obtain ⟨ts, hts⟩ := (httext.within 4).lexes_before isSymbol_question
  obtain ⟨us, hus⟩ := (hatext.within 2).lexes_behind isSymbol_colon
  refine ⟨ts, us, _, .of_fixed _ _ (one_le_level _) hts ?_
    (hus.mono fun c hc => hc.ends (show 3 < 18 by decide)) ?_ (fun _ => (by decide : 3 < 18)) ?_⟩
  · exact hop.head?_within_append 4 _
  · rw [String.append_assoc, String.append_assoc]
    exact .of_text (by decide) _
  · intro e r he hr
    rw [fill, rendered_conditional hrt he hra, ofConditional_eq]
    simp [least, level, Precedence.conditional, Precedence.assignment, String.append_assoc]

theorem hasSetting_alternate {test consequent : Node} (ht : IsPiece A test)
    (hc : IsPiece A consequent) : (alternate test consequent).HasSetting A := by
  obtain ⟨rt, hrt, hop, httext⟩ := ht
  obtain ⟨rc, hrc, -, hctext⟩ := hc
  refine Setting.behind_operator isSymbol_colon
    ((httext.within 4).spaced (hctext.within 2) isSymbol_question) ?_ (one_le_level _)
    (show 3 < 18 by decide) ?_
  · exact hop.head?_within_append 4 _
  · intro e r he hr
    rw [fill, rendered_conditional hrt hrc he, ofConditional_eq]
    simp [least, level, Precedence.conditional, Precedence.assignment, String.append_assoc]

theorem hasSetting_operand {before after : List Node} (h : ∀ e ∈ before ++ after, IsPiece A e) :
    (operand before after).HasSetting A := by
  obtain ⟨lead, trail, ts, us, hlist⟩ := exists_listSetting h
  refine ⟨ts, us, _, .of_fixed _ _ (one_le_level _) hlist.lexes_lead hlist.not_equals
    (hlist.lexes_trail.mono fun c hc => hc.ends (show 1 < 18 by decide)) hlist.closes
    (fun _ => (by decide : 1 < 18)) ?_⟩
  intro e r he hr
  obtain ⟨rs, hrs, htext⟩ := hlist.fills he hr
  rw [fill, Node.rendered, hrs]
  simp [bind, Except.bind, pure, Except.pure, htext, least, level]

theorem hasSetting_element {before after : List Node} (h : ∀ e ∈ before ++ after, IsPiece A e) :
    (element before after).HasSetting A := by
  obtain ⟨lead, trail, ts, us, hlist⟩ := exists_listSetting h
  refine ⟨[Token.mark "["] ++ ts, us ++ [Token.mark "]"], _,
    .of_fixed ("[" ++ lead) (trail ++ "]") (one_le_level _) ?_
      (by simp [String.toList_append]) ?_ (hlist.closes_bracket (by decide)) ?_ ?_⟩
  · rw [String.toList_append]
    exact (A.lexes_solitary (m := "[") (by decide)).append_any hlist.lexes_lead
  · exact (hlist.lexes_bracket (by decide)).mono fun _ _ => trivial
  · simp [String.toList_append]
  · intro e r he hr
    obtain ⟨rs, hrs, htext⟩ := hlist.fills he hr
    rw [fill, Node.rendered, hrs]
    simp [bind, Except.bind, pure, Except.pure, Rendered.ofElements, Rendered.atom, htext, least,
      level, String.append_assoc]

theorem hasSetting_callee {arguments : List Node} (h : ∀ e ∈ arguments, IsPiece A e) :
    (callee arguments).HasSetting A := by
  obtain ⟨rs, text, hrs, htext, htokens⟩ := exists_commaList h
  obtain ⟨ts, hts⟩ := htokens.lexes_parenthesized (by decide : ("(", ")") ∈ brackets)
  refine ⟨[], ts, _, .of_fixed "" _ (one_le_level _) Alphabet.Lexes.nil (by simp)
    (hts.mono fun _ _ => trivial) ?_ (by simp [String.toList_append]) ?_⟩
  · rw [String.append_assoc]
    exact .of_text (by decide) _
  · intro e r he hr
    rw [fill, Node.rendered, he, hrs]
    simp [bind, Except.bind, pure, Except.pure, Rendered.ofCall, htext, least, level,
      String.append_assoc]

theorem hasSetting_argument {other : Node} {before after : List Node} (hother : IsPiece A other)
    (h : ∀ e ∈ before ++ after, IsPiece A e) : (argument other before after).HasSetting A := by
  obtain ⟨s, hs, hop, htokens⟩ := hother
  obtain ⟨vs, hvs⟩ := htokens.within Precedence.member
  obtain ⟨lead, trail, ts, us, hlist⟩ := exists_listSetting h
  refine ⟨vs ++ ([Token.mark "("] ++ ts), us ++ [Token.mark ")"], _,
    .of_fixed (s.within Precedence.member ++ ("(" ++ lead)) (trail ++ ")")
      (one_le_level _) ?_ ?_ ?_ (hlist.closes_bracket (by decide)) ?_ ?_⟩
  · rw [String.toList_append, String.toList_append]
    have hopen := A.lexes_solitary (m := "(") (by decide)
    refine hvs.append (hopen.append_any hlist.lexes_lead) (by simp) ?_
    intro c hc
    obtain rfl := Option.some.inj hc
    exact endsOperand_of_isDelimiter (by decide)
  · exact hop.head?_within_append _ _
  · exact (hlist.lexes_bracket (by decide)).mono fun _ _ => trivial
  · simp [String.toList_append]
  · intro e r he hr
    obtain ⟨rs, hrs, htext⟩ := hlist.fills he hr
    rw [fill, Node.rendered, hs, hrs]
    simp [bind, Except.bind, pure, Except.pure, Rendered.ofCall, htext, least, level,
      String.append_assoc]

theorem hasSetting_object {name : String} (h : A.IsName name) : (object name).HasSetting A := by
  refine ⟨[], [Token.mark ".", Token.word name], _,
    .of_fixed "" ("." ++ name) (one_le_level _) Alphabet.Lexes.nil (by simp)
      ((lexes_point_name h).mono fun c hc => hc.no_name) (.inr (.inr ⟨rfl, ?_⟩))
      (by simp [String.toList_append]) ?_⟩
  · simp [String.toList_append]
  · intro e r he hr
    have hname : (Rendered.ofName (.text name)).within Precedence.sequence = name := rfl
    rw [fill, Node.rendered, he]
    simp [bind, Except.bind, pure, Except.pure, Node.rendered, Rendered.ofMember, hname, least,
      level, String.append_assoc]

theorem hasSetting_indexed {other : Node} (h : IsPiece A other) : (indexed other).HasSetting A := by
  obtain ⟨s, hs, -, htokens⟩ := h
  obtain ⟨ts, hts⟩ := (htokens.within 1).lexes_parenthesized (by decide : ("[", "]") ∈ brackets)
  refine ⟨[], ts, _, .of_fixed "" _ (one_le_level _) Alphabet.Lexes.nil (by simp)
    (hts.mono fun _ _ => trivial) ?_ (by simp [String.toList_append]) ?_⟩
  · rw [String.append_assoc]
    exact .of_text (by decide) _
  · intro e r he hr
    rw [fill, Node.rendered, he, hs]
    simp [bind, Except.bind, pure, Except.pure, Rendered.ofMember, least, level,
      Precedence.sequence, String.append_assoc]

theorem hasSetting_index {other : Node} (h : IsPiece A other) : (index other).HasSetting A := by
  obtain ⟨s, hs, hop, htokens⟩ := h
  obtain ⟨ts, hts⟩ := htokens.within Precedence.member
  have hopen := A.lexes_solitary (m := "[") (by decide)
  have hclose := A.lexes_solitary (m := "]") (by decide)
  refine ⟨ts ++ [Token.mark "["], [Token.mark "]"], _,
    .of_fixed (s.within Precedence.member ++ "[") "]" (one_le_level _) ?_ ?_
      (hclose.mono fun _ _ => trivial) (.of_boundary (m := "]") (by decide) []) (by simp) ?_⟩
  · rw [String.toList_append]
    refine hts.append hopen (by decide) ?_
    intro c hc
    obtain rfl := Option.some.inj hc
    exact endsOperand_of_isDelimiter (by decide)
  · exact hop.head?_within_append _ _
  · intro e r he hr
    rw [fill, Node.rendered, hs, he]
    simp [bind, Except.bind, pure, Except.pure, Rendered.ofMember, least, level, String.append_assoc]

theorem hasSetting_value {other : Node} {before after : List Property} (computed : Bool)
    (hother : IsPiece A other) (h : ∀ p ∈ before ++ after, IsPiece A p.key ∧ IsPiece A p.value) :
    (value computed other before after).HasSetting A := by
  obtain ⟨s, hs, -, htokens⟩ := hother
  obtain ⟨vs, hvs⟩ := exists_lexes_key htokens computed
  obtain ⟨lead, trail, ts, us, hlist⟩ := exists_propertySetting h
  refine ⟨ts ++ vs, us, _, .of_fixed (lead ++ (keyText s computed ++ ": ")) _ (one_le_level _) ?_ ?_
    (hlist.lexes_trail.mono fun _ _ => trivial) hlist.closes (fun hnil => absurd hnil hlist.not_empty) ?_⟩
  · rw [String.toList_append]
    exact hlist.lexes_lead.append_any hvs
  · rw [String.toList_append, List.head?_append, hlist.brace]
    simp
  · intro e r he hr
    rw [fill, hlist.fills hs he, propertyText_eq]
    simp [Rendered.atom, least, level, String.append_assoc]

theorem hasSetting_key {other : Node} {before after : List Property} (computed : Bool)
    (hother : IsPiece A other) (h : ∀ p ∈ before ++ after, IsPiece A p.key ∧ IsPiece A p.value) :
    (key computed other before after).HasSetting A := by
  obtain ⟨s, hs, -, htokens⟩ := hother
  obtain ⟨vs, hvs⟩ := htokens.within Precedence.assignment
  obtain ⟨lead, trail, ts, us, hlist⟩ := exists_propertySetting h
  have hbehind : A.Lexes (": " ++ (s.within Precedence.assignment ++ trail)).toList
      ([Token.mark ":"] ++ (vs ++ us)) Alphabet.anything := by
    rw [String.toList_append, String.toList_append]
    refine lexes_colon.append_any (hvs.append hlist.lexes_trail hlist.not_empty ?_)
    intro c hc
    exact hlist.closes.endsOperand hc
  cases computed with
  | false =>
      refine ⟨ts, _, _, .of_fixed _ _ (one_le_level _) hlist.lexes_lead ?_ (hbehind.mono fun _ _ => trivial) ?_
        (by simp [String.toList_append]) ?_⟩
      · rw [hlist.brace]
        decide
      · show Closes false (":" ++ " " ++ (s.within Precedence.assignment ++ trail)).toList
        rw [String.append_assoc]
        exact .of_text (by decide) _
      · intro e r he hr
        rw [fill, hlist.fills he hs, propertyText_eq, keyText, if_neg (by decide)]
        simp [Rendered.atom, least, level, Precedence.assignment, String.append_assoc]
  | true =>
      have hopen := A.lexes_solitary (m := "[") (by decide)
      have hclose := A.lexes_solitary (m := "]") (by decide)
      refine ⟨ts ++ [Token.mark "["], [Token.mark "]"] ++ ([Token.mark ":"] ++ (vs ++ us)), _,
        .of_fixed (lead ++ "[") ("]" ++ (": " ++ (s.within Precedence.assignment ++ trail)))
          (one_le_level _) ?_ ?_ ?_
            ?_ (by simp [String.toList_append]) ?_⟩
      · rw [String.toList_append]
        exact hlist.lexes_lead.append_any hopen
      · rw [String.toList_append, List.head?_append, hlist.brace]
        decide
      · rw [String.toList_append]
        exact (hclose.append_any hbehind).mono fun _ _ => trivial
      · exact .of_text (by decide) _
      · intro e r he hr
        rw [fill, hlist.fills he hs, propertyText_eq, keyText, if_pos rfl]
        simp [Rendered.atom, least, level, Precedence.assignment, String.append_assoc]
        exact @String.append_assoc "]" ": " _

/-- **Every frame has a text before and a text behind its part.** -/
theorem hasSetting {f : Frame} (h : f.IsSound A) : f.HasSetting A := by
  cases f with
  | unary _ => exact hasSetting_unary h
  | update _ before => exact hasSetting_update h before
  | left logical _ _ => exact hasSetting_left logical h.1 h.2
  | right logical _ _ => exact hasSetting_right logical h.1 h.2
  | test _ _ => exact hasSetting_test h.1 h.2
  | consequent _ _ => exact hasSetting_consequent h.1 h.2
  | alternate _ _ => exact hasSetting_alternate h.1 h.2
  | target _ _ => exact hasSetting_target h.1 h.2
  | assigned _ _ => exact hasSetting_assigned h.1 h.2
  | operand _ _ => exact hasSetting_operand h
  | callee _ => exact hasSetting_callee h
  | argument _ _ _ => exact hasSetting_argument h.1 h.2
  | object _ => exact hasSetting_object h
  | indexed _ => exact hasSetting_indexed h
  | index _ => exact hasSetting_index h
  | element _ _ => exact hasSetting_element h
  | key computed _ _ _ => exact hasSetting_key computed h.1 h.2
  | value computed _ _ _ => exact hasSetting_value computed h.1 h.2

end Frame

end PhpMigration.JavaScript
