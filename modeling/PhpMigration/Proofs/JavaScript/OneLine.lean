/-
Expressions are printed in one line.

A line feed can only come into the text of an expression from a name, from an operator or from what
stands in place of a number, because these are put there as they are.  A literal escapes it, and so
does every value that is cited; what is not a text is written with digits, words and marks.  All
else is put together from such texts with fixed ones between them (`Node.isOneLine_rendered`).
-/
import PhpMigration.JavaScript.Printer
import PhpMigration.Proofs.Attempt
import PhpMigration.Proofs.JavaScript.Quoted
import PhpMigration.Proofs.Lowering.Walk
import PhpMigration.Proofs.Number.DecimalText
import PhpMigration.Proofs.Text.Digits

namespace PhpMigration

/-! ### Texts -/

/-- A text without a line feed. -/
def Text.IsOneLine (s : String) : Prop := '\n' ∉ s.toList

namespace Text

instance (s : String) : Decidable (IsOneLine s) := inferInstanceAs (Decidable ('\n' ∉ s.toList))

theorem isOneLine_ofList {cs : List Char} : IsOneLine (String.ofList cs) ↔ '\n' ∉ cs := by
  unfold IsOneLine
  rw [String.toList_ofList]

theorem isOneLine_append {a b : String} : IsOneLine (a ++ b) ↔ IsOneLine a ∧ IsOneLine b := by
  unfold IsOneLine
  rw [String.toList_append, List.mem_append, not_or]

theorem not_mem_intercalate {separator : List Char} {pieces : List (List Char)}
    (hseparator : '\n' ∉ separator) (h : ∀ piece ∈ pieces, '\n' ∉ piece) :
    '\n' ∉ separator.intercalate pieces := by
  induction pieces with
  | nil => simp
  | cons piece rest ih =>
      obtain ⟨hpiece, hrest⟩ := List.forall_mem_cons.mp h
      cases rest with
      | nil => simpa using hpiece
      | cons next rest =>
          rw [List.intercalate_cons_cons]
          simp only [List.mem_append, not_or]
          exact ⟨⟨hpiece, hseparator⟩, ih hrest⟩

theorem isOneLine_intercalate {separator : String} {pieces : List String}
    (hseparator : IsOneLine separator) (h : ∀ piece ∈ pieces, IsOneLine piece) :
    IsOneLine (separator.intercalate pieces) := by
  unfold IsOneLine
  rw [String.toList_intercalate]
  exact not_mem_intercalate hseparator (List.forall_mem_map.mpr h)

/-- Digits are no line feeds. -/
theorem not_mem_of_isDigit {cs : List Char} (h : ∀ c ∈ cs, c.isDigit = true) : '\n' ∉ cs := by
  intro hmem
  exact absurd (h _ hmem) (by decide)

theorem not_mem_toDigits (n : Nat) : '\n' ∉ Nat.toDigits 10 n :=
  not_mem_of_isDigit fun _ => isDigit_of_mem_toDigits

theorem not_mem_hexDigits (width n : Nat) : '\n' ∉ hexDigits width n := by
  induction width generalizing n with
  | zero => simp [hexDigits]
  | succ width ih =>
      have hdigit : ∀ k < 16, '\n' ≠ Nat.digitChar k := by decide
      simp only [hexDigits, List.mem_append, List.mem_singleton, not_or]
      exact ⟨ih (n / 16), hdigit _ (Nat.mod_lt n (by decide))⟩

theorem not_mem_citeChar {quote : Char} (hquote : quote ≠ '\n') (c : Char) :
    '\n' ∉ citeChar quote c := by
  have hhex := not_mem_hexDigits
  unfold citeChar
  by_cases hc : c = '\n'
  · subst hc
    simp [hquote.symm]
  · have hne : '\n' ≠ c := Ne.symm hc
    repeat' split
    all_goals simp [hhex, hne]

theorem isOneLine_cite (s : String) : IsOneLine (cite s) := by
  have hquote : citeQuote s.toList ≠ '\n' := by
    unfold citeQuote
    split <;> decide
  unfold cite
  rw [isOneLine_ofList]
  simp only [List.mem_append, List.mem_cons, List.mem_flatMap, List.not_mem_nil, or_false, not_or]
  exact ⟨⟨hquote.symm, fun ⟨c, _, hc⟩ => not_mem_citeChar hquote c hc⟩, hquote.symm⟩

end Text

/-! ### Values -/

namespace Double

theorem mem_of_mem_positional {digits : List Char} {whole : Int} {c : Char}
    (h : c ∈ positional digits whole) : c ∈ digits ∨ c = '0' ∨ c = '.' := by
  unfold positional at h
  grind [List.mem_of_mem_take, List.mem_of_mem_drop]

theorem mem_of_mem_scientific {digits : List Char} {e : Int} {c : Char}
    (h : c ∈ scientific digits e) :
    c ∈ digits ∨ c ∈ Nat.toDigits 10 e.natAbs ∨ c ∈ ['0', '.', 'e', '-', '+'] := by
  unfold scientific exponentText at h
  grind

theorem not_mem_decimalText (d : Decimal) : '\n' ∉ decimalText d := by
  have hdigits := Text.not_mem_toDigits
  intro h
  unfold decimalText at h
  dsimp only at h
  split at h
  · rcases mem_of_mem_positional h with h | h | h
    · exact hdigits _ h
    · cases h
    · cases h
  · rcases mem_of_mem_scientific h with h | h | h
    · exact hdigits _ h
    · exact hdigits _ h
    · exact absurd h (by decide)

theorem isOneLine_toText (d : Double) : Text.IsOneLine d.toText := by
  cases d with
  | nan => exact (by decide : Text.IsOneLine "nan")
  | infinite negative =>
      cases negative with
      | false => exact (by decide : Text.IsOneLine "inf")
      | true => exact (by decide : Text.IsOneLine "-inf")
  | finite negative m e =>
      have hbody : Text.IsOneLine
          (if m = 0 then "0.0" else String.ofList (decimalText (shortest m e))) := by
        split
        · decide
        · exact Text.isOneLine_ofList.mpr (not_mem_decimalText _)
      unfold toText
      dsimp only
      split
      · exact Text.isOneLine_append.mpr ⟨by decide, hbody⟩
      · exact hbody

end Double

theorem Text.isOneLine_toString (n : Int) : IsOneLine (toString n) := by
  have hdigits : ∀ k : Nat, IsOneLine (toString k) := fun k =>
    not_mem_of_isDigit fun _ => isDigit_of_mem_toString
  cases n with
  | ofNat k => exact hdigits k
  | negSucc k => exact isOneLine_append.mpr ⟨(by decide : IsOneLine "-"), hdigits (k + 1)⟩

namespace Value

/-- A value that is a text is one without a line feed. -/
def IsOneLine (v : Value) : Prop := ∀ s, v = .text s → Text.IsOneLine s

theorem isOneLine_truthWord (b : Bool) : Text.IsOneLine (truthWord b) := by
  cases b <;> decide

theorem isOneLine_shownNumber (x : Numeral) : Text.IsOneLine (shownNumber x) := by
  cases x with
  | int n => exact Text.isOneLine_toString n
  | truth b => exact isOneLine_truthWord b
  | double d => exact d.isOneLine_toText

mutual

/-- A value that is cited stands in one line, whatever texts it holds. -/
theorem isOneLine_cited : (v : Value) → Text.IsOneLine v.cited
  | .null => by decide
  | .flag b => isOneLine_truthWord b
  | .number x => isOneLine_shownNumber x
  | .text s => Text.isOneLine_cite s
  | .list items => by
    rw [cited, Text.isOneLine_append, Text.isOneLine_append]
    exact ⟨⟨by decide, Text.isOneLine_intercalate (by decide) (isOneLine_citedItems items)⟩,
      by decide⟩
  | .object members => by
    rw [cited, Text.isOneLine_append, Text.isOneLine_append]
    exact ⟨⟨by decide, Text.isOneLine_intercalate (by decide) (isOneLine_citedMembers members)⟩,
      by decide⟩

theorem isOneLine_citedItems : (items : List Value) → ∀ s ∈ citedItems items, Text.IsOneLine s
  | [] => nofun
  | item :: rest =>
    List.forall_mem_cons.mpr ⟨isOneLine_cited item, isOneLine_citedItems rest⟩

theorem isOneLine_citedMembers :
    (members : List (String × Value)) → ∀ s ∈ citedMembers members, Text.IsOneLine s
  | [] => nofun
  | (name, value) :: rest => by
    refine List.forall_mem_cons.mpr ⟨?_, isOneLine_citedMembers rest⟩
    rw [Text.isOneLine_append, Text.isOneLine_append]
    exact ⟨⟨Text.isOneLine_cite name, by decide⟩, isOneLine_cited value⟩

end

theorem IsOneLine.shown {v : Value} (h : v.IsOneLine) : Text.IsOneLine v.shown := by
  cases v with
  | text s => exact h s rfl
  | null => exact isOneLine_cited .null
  | flag b => exact isOneLine_cited (.flag b)
  | number x => exact isOneLine_cited (.number x)
  | list items => exact isOneLine_cited (.list items)
  | object members => exact isOneLine_cited (.object members)

end Value

namespace Json

theorem not_mem_plainChar (c : Char) : '\n' ∉ plainChar c := by
  rcases plainChar_cases c with ⟨-, h⟩ | ⟨-, h⟩ | ⟨h, -, -, hlow⟩ | ⟨d, more, h, hd, hmore⟩
  · simp [h]
  · simp [h]
  · rw [h, List.mem_singleton]
    rintro rfl
    exact absurd hlow (by decide)
  · rw [h]
    simp only [List.mem_cons, not_or]
    refine ⟨by decide, ?_, fun hmem => absurd (hmore _ hmem) (by decide)⟩
    rintro rfl
    exact absurd hd (by decide)

theorem isOneLine_numberText (x : Numeral) : Text.IsOneLine (numberText x) := by
  cases x with
  | int n => exact Text.isOneLine_toString n
  | truth b => cases b <;> exact (by decide)
  | double d =>
      cases d with
      | nan => exact (by decide : Text.IsOneLine "NaN")
      | infinite negative =>
          cases negative with
          | false => exact (by decide : Text.IsOneLine "Infinity")
          | true => exact (by decide : Text.IsOneLine "-Infinity")
      | finite negative m e => exact (Double.finite negative m e).isOneLine_toText

theorem not_mem_escaped (s : String) : '\n' ∉ s.toList.flatMap plainChar := by
  intro h
  obtain ⟨c, -, hc⟩ := List.mem_flatMap.mp h
  exact not_mem_plainChar c hc

mutual

/-- A value that is written in a single line is. -/
theorem not_mem_line : (v : Value) → '\n' ∉ line v
  | .null => by decide
  | .flag b => by cases b <;> decide
  | .number x => isOneLine_numberText x
  | .text s => by
    have hs := not_mem_escaped s
    simp [line, hs]
  | .list items => by
    have hitems : '\n' ∉ [',', ' '].intercalate (lines items) :=
      Text.not_mem_intercalate (by decide) (not_mem_lines items)
    simp [line, hitems]
  | .object members => by
    have hmembers : '\n' ∉ [',', ' '].intercalate (memberLines members) :=
      Text.not_mem_intercalate (by decide) (not_mem_memberLines members)
    simp [line, hmembers]

theorem not_mem_lines : (items : List Value) → ∀ cs ∈ lines items, '\n' ∉ cs
  | [] => nofun
  | item :: rest => List.forall_mem_cons.mpr ⟨not_mem_line item, not_mem_lines rest⟩

theorem not_mem_memberLines :
    (members : List (String × Value)) → ∀ cs ∈ memberLines members, '\n' ∉ cs
  | [] => nofun
  | (name, value) :: rest => by
    refine List.forall_mem_cons.mpr ⟨?_, not_mem_memberLines rest⟩
    have hname := not_mem_escaped name
    have hvalue := not_mem_line value
    simp [hname, hvalue]

end

end Json

/-- Nothing comes into a text by replacement but what is put in. -/
theorem Text.mem_of_mem_replaceFrom {old new : List Char} {c : Char} {skip : Nat} {cs : List Char}
    (h : c ∈ replaceFrom old new skip cs) : c ∈ new ∨ c ∈ cs := by
  induction cs generalizing skip with
  | nil => cases skip <;> cases h
  | cons d rest ih =>
      cases skip with
      | succ skip => exact (ih h).imp_right (List.mem_cons_of_mem d)
      | zero =>
          rw [replaceFrom] at h
          split at h
          · rcases List.mem_append.mp h with h | h
            · exact .inl h
            · exact (ih h).imp_right (List.mem_cons_of_mem d)
          · rcases List.mem_cons.mp h with rfl | h
            · exact .inr List.mem_cons_self
            · exact (ih h).imp_right (List.mem_cons_of_mem d)

namespace JavaScript

/-- A literal stands in one line, whatever it denotes. -/
theorem Quoted.isOneLine_quoteValue (v : Value) : Text.IsOneLine (quoteValue v) := by
  have hline : '\n' ∉ ((Json.line v).drop 1).dropLast := fun h =>
    Json.not_mem_line v (List.mem_of_mem_drop (List.mem_of_mem_dropLast h))
  have hrequoted : '\n' ∉ requote ((Json.line v).drop 1).dropLast := by
    intro h
    rcases Text.mem_of_mem_replaceFrom h with h | h
    · exact absurd h (by decide)
    · rcases Text.mem_of_mem_replaceFrom h with h | h
      · exact absurd h (by decide)
      · exact hline h
  unfold quoteValue
  rw [Text.isOneLine_ofList, List.mem_cons, List.mem_append, List.mem_singleton]
  rintro (h | h | h)
  · exact absurd h (by decide)
  · exact hrequoted h
  · exact absurd h (by decide)

theorem isOneLine_literalText {v : Value} (h : v.IsOneLine) : Text.IsOneLine (literalText v) := by
  unfold literalText
  split
  · rename_i x _
    unfold numberText
    cases x with
    | int n => exact Text.isOneLine_toString n
    | truth b => cases b <;> exact (by decide)
    | double d =>
        dsimp only
        split
        · split
          · exact Text.isOneLine_toString _
          · exact d.isOneLine_toText
        · exact d.isOneLine_toText
  · exact h.shown

/-! ### Expressions -/

namespace Rendered

variable {r left right : Rendered} {operator : Value} {rs : List Rendered} {s : String}

theorem isOneLine_within (h : Text.IsOneLine r.text) (least : Nat) :
    Text.IsOneLine (r.within least) := by
  unfold within
  split
  · simp only [Text.isOneLine_append]
    exact ⟨⟨by decide, h⟩, by decide⟩
  · exact h

theorem isOneLine_textWithin {least : Nat} (h : Text.IsOneLine r.text)
    (hs : r.textWithin least = .ok s) : Text.IsOneLine s := by
  unfold textWithin at hs
  split at hs
  · obtain rfl := pure_eq_ok_iff.mp hs
    exact isOneLine_within h least
  · cases hs

theorem isOneLine_commaList {least : Nat} (h : ∀ r ∈ rs, Text.IsOneLine r.text)
    (hs : commaList least rs = .ok s) : Text.IsOneLine s := by
  obtain ⟨texts, htexts, hs⟩ := bind_eq_ok_iff.mp hs
  obtain rfl := pure_eq_ok_iff.mp hs
  refine Text.isOneLine_intercalate (by decide) fun text htext => ?_
  obtain ⟨r, hr, hwithin⟩ := exists_of_mem_mapM htexts htext
  exact isOneLine_textWithin (h r hr) hwithin

theorem isOneLine_ofUnary (hoperator : operator.IsOneLine) (h : Text.IsOneLine r.text)
    (hs : ofUnary operator r = .ok left) : Text.IsOneLine left.text := by
  have hwithin := isOneLine_within h Precedence.unary
  unfold ofUnary at hs
  split at hs
  · rename_i symbol
    have hseparator : Text.IsOneLine (separator symbol (r.within Precedence.unary)) := by
      unfold separator
      repeat' split
      all_goals decide
    dsimp only at hs
    split at hs
    · cases hs
    · obtain rfl := pure_eq_ok_iff.mp hs
      simp only [Text.isOneLine_append]
      exact ⟨⟨hoperator symbol rfl, hseparator⟩, hwithin⟩
  · cases hs

theorem isOneLine_ofBinary (hoperator : operator.IsOneLine) (hleft : Text.IsOneLine left.text)
    (hright : Text.IsOneLine right.text) :
    Text.IsOneLine (ofBinary operator left right).text := by
  simp only [ofBinary, Text.isOneLine_append]
  exact ⟨⟨⟨⟨isOneLine_within hleft _, by decide⟩, hoperator.shown⟩, by decide⟩,
    isOneLine_within hright _⟩

theorem isOneLine_ofUpdate {before : Bool} (hoperator : operator.IsOneLine)
    (h : Text.IsOneLine r.text) (hs : ofUpdate operator before r = .ok left) :
    Text.IsOneLine left.text := by
  unfold ofUpdate at hs
  split at hs
  · rename_i symbol
    split at hs
    · obtain ⟨text, htext, hs⟩ := bind_eq_ok_iff.mp hs
      obtain rfl := pure_eq_ok_iff.mp hs
      exact Text.isOneLine_append.mpr ⟨hoperator symbol rfl, isOneLine_textWithin h htext⟩
    · obtain ⟨text, htext, hs⟩ := bind_eq_ok_iff.mp hs
      obtain rfl := pure_eq_ok_iff.mp hs
      exact Text.isOneLine_append.mpr ⟨isOneLine_textWithin h htext, hoperator symbol rfl⟩
  · cases hs

theorem isOneLine_ofConditional (h : Text.IsOneLine r.text) (hleft : Text.IsOneLine left.text)
    (hright : Text.IsOneLine right.text) : Text.IsOneLine (ofConditional r left right).text := by
  simp only [ofConditional, Text.isOneLine_append]
  exact ⟨⟨⟨⟨isOneLine_within h _, by decide⟩, isOneLine_within hleft _⟩, by decide⟩,
    isOneLine_within hright _⟩

theorem isOneLine_ofAssignment (hoperator : operator.IsOneLine) (hleft : Text.IsOneLine left.text)
    (hright : Text.IsOneLine right.text) :
    Text.IsOneLine (ofAssignment operator left right).text := by
  simp only [ofAssignment, Text.isOneLine_append]
  exact ⟨⟨⟨⟨isOneLine_within hleft _, by decide⟩, hoperator.shown⟩, by decide⟩,
    isOneLine_within hright _⟩

theorem isOneLine_ofDefault (hleft : Text.IsOneLine left.text)
    (hright : Text.IsOneLine right.text) : Text.IsOneLine (ofDefault left right).text := by
  simp only [ofDefault, Text.isOneLine_append]
  exact ⟨⟨isOneLine_within hleft _, by decide⟩, isOneLine_within hright _⟩

theorem isOneLine_ofMember (hleft : Text.IsOneLine left.text) (hright : Text.IsOneLine right.text)
    (computed : Bool) : Text.IsOneLine (ofMember left right computed).text := by
  have hobject := isOneLine_within hleft Precedence.member
  have hproperty := isOneLine_within hright Precedence.sequence
  unfold ofMember
  cases computed with
  | true =>
      simp only [if_true, Text.isOneLine_append]
      exact ⟨⟨⟨hobject, by decide⟩, hproperty⟩, by decide⟩
  | false =>
      simp only [Bool.false_eq_true, if_false, Text.isOneLine_append]
      exact ⟨⟨hobject, by decide⟩, hproperty⟩

theorem isOneLine_ofCall (h : Text.IsOneLine r.text) (hrs : ∀ r ∈ rs, Text.IsOneLine r.text)
    (hs : ofCall r rs = .ok left) : Text.IsOneLine left.text := by
  obtain ⟨arguments, harguments, hs⟩ := bind_eq_ok_iff.mp hs
  obtain rfl := pure_eq_ok_iff.mp hs
  simp only [Text.isOneLine_append]
  exact ⟨⟨⟨isOneLine_within h _, by decide⟩, isOneLine_commaList hrs harguments⟩, by decide⟩

theorem isOneLine_ofElements {least : Nat} (hrs : ∀ r ∈ rs, Text.IsOneLine r.text)
    (hs : ofElements least rs = .ok left) : Text.IsOneLine left.text := by
  obtain ⟨elements, helements, hs⟩ := bind_eq_ok_iff.mp hs
  obtain rfl := pure_eq_ok_iff.mp hs
  simp only [atom, Text.isOneLine_append]
  exact ⟨⟨by decide, isOneLine_commaList hrs helements⟩, by decide⟩

theorem isOneLine_propertyText (hleft : Text.IsOneLine left.text)
    (hright : Text.IsOneLine right.text) (computed : Bool) :
    Text.IsOneLine (propertyText left right computed) := by
  have hkey := isOneLine_within hleft Precedence.assignment
  have hvalue := isOneLine_within hright Precedence.assignment
  unfold propertyText
  cases computed with
  | true =>
      simp only [if_true, Text.isOneLine_append]
      exact ⟨⟨⟨⟨by decide, hkey⟩, by decide⟩, by decide⟩, hvalue⟩
  | false =>
      simp only [Bool.false_eq_true, if_false, Text.isOneLine_append]
      exact ⟨⟨hkey, by decide⟩, hvalue⟩

theorem isOneLine_ofProperties {texts : List String} (h : ∀ text ∈ texts, Text.IsOneLine text) :
    Text.IsOneLine (ofProperties texts).text := by
  unfold ofProperties atom
  dsimp only
  split
  · decide
  · simp only [Text.isOneLine_append]
    exact ⟨⟨by decide, Text.isOneLine_intercalate (by decide) h⟩, by decide⟩

theorem isOneLine_ofName {name : Value} (h : name.IsOneLine) :
    Text.IsOneLine (ofName name).text := by
  have hshown := h.shown
  cases name <;> exact hshown

end Rendered

/-- What the node puts into its text as it is has no line feed: its name, its operator, the word of
a declaration, or what stands in place of a number. -/
def Node.HasPlainTexts : Node → Prop
  | .identifier value | .numericLiteral value | .unary value _ | .update value _ _
  | .binary value _ _ | .logical value _ _ | .assignment value _ _ | .declaration value _ =>
    value.IsOneLine
  | _ => True

/-- All that a tree puts into its text as it is has no line feed. -/
def Node.IsPlain (node : Node) : Prop := Everywhere Node.HasPlainTexts node

theorem Node.IsPlain.child {node child : Node} (h : node.IsPlain) (hchild : child ∈ node.parts) :
    child.IsPlain :=
  (everywhere_iff.mp h).2 child hchild

mutual

/-- **An expression is printed in one line.** -/
theorem Node.isOneLine_rendered : (node : Node) → node.IsPlain → ∀ {r : Rendered},
    node.rendered = .ok r → Text.IsOneLine r.text
  | .absent, _, r, h => by
    rw [Node.rendered, pure_eq_ok_iff] at h
    exact h ▸ by decide
  | .stray _, _, _, h => by rw [Node.rendered] at h; cases h
  | .unlisted _, _, _, h => by rw [Node.rendered] at h; cases h
  | .expressionStatement e, hplain, r, h => by
    rw [Node.rendered] at h
    exact e.isOneLine_rendered (hplain.child (by simp [Node.parts])) h
  | .identifier name, hplain, r, h => by
    rw [Node.rendered, pure_eq_ok_iff] at h
    exact h ▸ Rendered.isOneLine_ofName (everywhere_iff.mp hplain).1
  | .stringLiteral value, _, r, h => by
    rw [Node.rendered, pure_eq_ok_iff] at h
    exact h ▸ Quoted.isOneLine_quoteValue value
  | .numericLiteral value, hplain, r, h => by
    rw [Node.rendered, Rendered.ofLiteral_eq_ok_iff] at h
    exact h.2 ▸ isOneLine_literalText (everywhere_iff.mp hplain).1
  | .booleanLiteral value, _, r, h => by
    rw [Node.rendered, pure_eq_ok_iff] at h
    subst h
    cases value.isGiven with
    | true => exact (by decide : Text.IsOneLine "true")
    | false => exact (by decide : Text.IsOneLine "false")
  | .nullLiteral, _, r, h => by
    rw [Node.rendered, pure_eq_ok_iff] at h
    exact h ▸ by decide
  | .arrayExpression elements, hplain, r, h => by
    rw [Node.rendered] at h
    obtain ⟨rs, hrs, h⟩ := bind_eq_ok_iff.mp h
    have hall := isOneLine_renderedEach elements (fun n hn => hplain.child hn) hrs
    exact Rendered.isOneLine_ofElements hall h
  | .arrayPattern elements, hplain, r, h => by
    rw [Node.rendered] at h
    obtain ⟨rs, hrs, h⟩ := bind_eq_ok_iff.mp h
    have hall := isOneLine_renderedEach elements (fun n hn => hplain.child hn) hrs
    exact Rendered.isOneLine_ofElements hall h
  | .assignmentPattern left right, hplain, r, h => by
    rw [Node.rendered] at h
    obtain ⟨l, hl, h⟩ := bind_eq_ok_iff.mp h
    obtain ⟨v, hv, h⟩ := bind_eq_ok_iff.mp h
    obtain rfl := pure_eq_ok_iff.mp h
    exact Rendered.isOneLine_ofDefault
      (left.isOneLine_rendered (hplain.child (by simp [Node.parts])) hl)
      (right.isOneLine_rendered (hplain.child (by simp [Node.parts])) hv)
  | .objectExpression properties, hplain, r, h => by
    rw [Node.rendered] at h
    obtain ⟨texts, htexts, h⟩ := bind_eq_ok_iff.mp h
    obtain rfl := pure_eq_ok_iff.mp h
    exact Rendered.isOneLine_ofProperties
      (isOneLine_propertyTexts properties (fun n hn => hplain.child hn) htexts)
  | .member object property computed, hplain, r, h => by
    rw [Node.rendered] at h
    obtain ⟨o, ho, h⟩ := bind_eq_ok_iff.mp h
    obtain ⟨q, hq, h⟩ := bind_eq_ok_iff.mp h
    obtain rfl := pure_eq_ok_iff.mp h
    exact Rendered.isOneLine_ofMember
      (object.isOneLine_rendered (hplain.child (by simp [Node.parts])) ho)
      (property.isOneLine_rendered (hplain.child (by simp [Node.parts])) hq) computed
  | .call callee arguments, hplain, r, h => by
    rw [Node.rendered] at h
    obtain ⟨c, hc, h⟩ := bind_eq_ok_iff.mp h
    obtain ⟨rs, hrs, h⟩ := bind_eq_ok_iff.mp h
    exact Rendered.isOneLine_ofCall
      (callee.isOneLine_rendered (hplain.child (by simp [Node.parts])) hc)
      (isOneLine_renderedEach arguments (fun n hn => hplain.child (by simp [Node.parts, hn])) hrs) h
  | .update operator argument before, hplain, r, h => by
    rw [Node.rendered] at h
    obtain ⟨a, ha, h⟩ := bind_eq_ok_iff.mp h
    exact Rendered.isOneLine_ofUpdate (everywhere_iff.mp hplain).1
      (argument.isOneLine_rendered (hplain.child (by simp [Node.parts])) ha) h
  | .unary operator argument, hplain, r, h => by
    rw [Node.rendered] at h
    obtain ⟨a, ha, h⟩ := bind_eq_ok_iff.mp h
    exact Rendered.isOneLine_ofUnary (everywhere_iff.mp hplain).1
      (argument.isOneLine_rendered (hplain.child (by simp [Node.parts])) ha) h
  | .binary operator left right, hplain, r, h => by
    rw [Node.rendered] at h
    obtain ⟨a, ha, h⟩ := bind_eq_ok_iff.mp h
    obtain ⟨b, hb, h⟩ := bind_eq_ok_iff.mp h
    obtain rfl := pure_eq_ok_iff.mp h
    exact Rendered.isOneLine_ofBinary (everywhere_iff.mp hplain).1
      (left.isOneLine_rendered (hplain.child (by simp [Node.parts])) ha)
      (right.isOneLine_rendered (hplain.child (by simp [Node.parts])) hb)
  | .logical operator left right, hplain, r, h => by
    rw [Node.rendered] at h
    obtain ⟨a, ha, h⟩ := bind_eq_ok_iff.mp h
    obtain ⟨b, hb, h⟩ := bind_eq_ok_iff.mp h
    obtain rfl := pure_eq_ok_iff.mp h
    exact Rendered.isOneLine_ofBinary (everywhere_iff.mp hplain).1
      (left.isOneLine_rendered (hplain.child (by simp [Node.parts])) ha)
      (right.isOneLine_rendered (hplain.child (by simp [Node.parts])) hb)
  | .conditional test consequent alternate, hplain, r, h => by
    rw [Node.rendered] at h
    obtain ⟨a, ha, h⟩ := bind_eq_ok_iff.mp h
    obtain ⟨b, hb, h⟩ := bind_eq_ok_iff.mp h
    obtain ⟨c, hc, h⟩ := bind_eq_ok_iff.mp h
    obtain rfl := pure_eq_ok_iff.mp h
    exact Rendered.isOneLine_ofConditional
      (test.isOneLine_rendered (hplain.child (by simp [Node.parts])) ha)
      (consequent.isOneLine_rendered (hplain.child (by simp [Node.parts])) hb)
      (alternate.isOneLine_rendered (hplain.child (by simp [Node.parts])) hc)
  | .assignment operator left right, hplain, r, h => by
    rw [Node.rendered] at h
    obtain ⟨a, ha, h⟩ := bind_eq_ok_iff.mp h
    obtain ⟨b, hb, h⟩ := bind_eq_ok_iff.mp h
    obtain rfl := pure_eq_ok_iff.mp h
    exact Rendered.isOneLine_ofAssignment (everywhere_iff.mp hplain).1
      (left.isOneLine_rendered (hplain.child (by simp [Node.parts])) ha)
      (right.isOneLine_rendered (hplain.child (by simp [Node.parts])) hb)
  | .sequence expressions, hplain, r, h => by
    rw [Node.rendered] at h
    obtain ⟨rs, hrs, h⟩ := bind_eq_ok_iff.mp h
    obtain ⟨text, htext, h⟩ := bind_eq_ok_iff.mp h
    obtain rfl := pure_eq_ok_iff.mp h
    exact Rendered.isOneLine_commaList
      (isOneLine_renderedEach expressions (fun n hn => hplain.child hn) hrs) htext
  | .objectProperty .., _, _, h => by rw [Node.rendered] at h; cases h
  | .block .., _, _, h => by rw [Node.rendered] at h; cases h
  | .returnStatement .., _, _, h => by rw [Node.rendered] at h; cases h
  | .functionDeclaration .., _, _, h => by rw [Node.rendered] at h; cases h
  | .ifStatement .., _, _, h => by rw [Node.rendered] at h; cases h
  | .whileStatement .., _, _, h => by rw [Node.rendered] at h; cases h
  | .forStatement .., _, _, h => by rw [Node.rendered] at h; cases h
  | .declarator .., _, _, h => by rw [Node.rendered] at h; cases h
  | .declaration .., _, _, h => by rw [Node.rendered] at h; cases h
  | .forOf .., _, _, h => by rw [Node.rendered] at h; cases h
  | .program .., _, _, h => by rw [Node.rendered] at h; cases h

/-- The texts of some nodes as expressions. -/
theorem isOneLine_renderedEach : (nodes : List Node) → (∀ node ∈ nodes, node.IsPlain) →
    ∀ {rs : List Rendered}, renderedEach nodes = .ok rs → ∀ r ∈ rs, Text.IsOneLine r.text
  | [], _, rs, h => by
    rw [renderedEach, pure_eq_ok_iff] at h
    exact h ▸ nofun
  | node :: rest, hplain, rs, h => by
    rw [renderedEach] at h
    obtain ⟨first, hfirst, h⟩ := bind_eq_ok_iff.mp h
    obtain ⟨more, hmore, h⟩ := bind_eq_ok_iff.mp h
    obtain rfl := pure_eq_ok_iff.mp h
    obtain ⟨hnode, hrest⟩ := List.forall_mem_cons.mp hplain
    exact List.forall_mem_cons.mpr
      ⟨node.isOneLine_rendered hnode hfirst, isOneLine_renderedEach rest hrest hmore⟩

/-- The texts of the properties of an object. -/
theorem isOneLine_propertyTexts : (properties : List Node) →
    (∀ node ∈ properties, node.IsPlain) → ∀ {texts : List String},
    propertyTexts properties = .ok texts → ∀ text ∈ texts, Text.IsOneLine text
  | [], _, texts, h => by
    rw [propertyTexts, pure_eq_ok_iff] at h
    exact h ▸ nofun
  | node :: rest, hplain, texts, h => by
    cases node with
    | objectProperty key value computed =>
        rw [propertyTexts] at h
        obtain ⟨k, hk, h⟩ := bind_eq_ok_iff.mp h
        obtain ⟨v, hv, h⟩ := bind_eq_ok_iff.mp h
        obtain ⟨more, hmore, h⟩ := bind_eq_ok_iff.mp h
        obtain rfl := pure_eq_ok_iff.mp h
        obtain ⟨hproperty, hrest⟩ := List.forall_mem_cons.mp hplain
        refine List.forall_mem_cons.mpr ⟨?_, isOneLine_propertyTexts rest hrest hmore⟩
        exact Rendered.isOneLine_propertyText
          (key.isOneLine_rendered (hproperty.child (by simp [Node.parts])) hk)
          (value.isOneLine_rendered (hproperty.child (by simp [Node.parts])) hv) computed
    | unlisted given =>
        rw [propertyTexts] at h
        split at h
        · cases h
        · rw [pure_eq_ok_iff] at h
          exact h ▸ nofun
    | _ =>
        rw [propertyTexts] at h
        · cases h
        all_goals nofun

end

/-! ### Parts of statements -/

theorem Node.isOneLine_expressionText {node : Node} (hplain : node.IsPlain) {s : String}
    (h : node.expressionText = .ok s) : Text.IsOneLine s := by
  obtain ⟨r, hr, h⟩ := bind_eq_ok_iff.mp h
  obtain rfl := pure_eq_ok_iff.mp h
  exact Rendered.isOneLine_within (node.isOneLine_rendered hplain hr) _

theorem Node.isOneLine_statementText {node : Node} (hplain : node.IsPlain) {s : String}
    (h : node.statementText = .ok s) : Text.IsOneLine s := by
  obtain ⟨r, hr, h⟩ := bind_eq_ok_iff.mp h
  split at h
  · obtain rfl := pure_eq_ok_iff.mp h
    have hwithin :=
      Rendered.isOneLine_within (node.isOneLine_rendered hplain hr) Precedence.sequence
    unfold parenthesized
    split
    · simp only [Text.isOneLine_append]
      exact ⟨⟨by decide, hwithin⟩, by decide⟩
    · exact hwithin
  · cases h

theorem Node.isOneLine_headerPart {node : Node} (hplain : node.IsPlain) {lead s : String}
    (hlead : Text.IsOneLine lead) (h : node.headerPart lead = .ok s) : Text.IsOneLine s := by
  unfold headerPart at h
  split at h
  · obtain ⟨r, hr, h⟩ := bind_eq_ok_iff.mp h
    obtain ⟨text, htext, h⟩ := bind_eq_ok_iff.mp h
    obtain rfl := pure_eq_ok_iff.mp h
    exact Text.isOneLine_append.mpr
      ⟨hlead, Rendered.isOneLine_textWithin (node.isOneLine_rendered hplain hr) htext⟩
  · obtain rfl := pure_eq_ok_iff.mp h
    decide

theorem Node.isOneLine_functionName {node : Node} (hplain : node.IsPlain) {s : String}
    (h : node.functionName = .ok s) : Text.IsOneLine s := by
  unfold functionName at h
  split at h
  · obtain rfl := pure_eq_ok_iff.mp h
    decide
  · obtain rfl := pure_eq_ok_iff.mp h
    have hname : Value.IsOneLine _ := (everywhere_iff.mp hplain).1
    exact hname.shown
  · split at h
    · cases h
    · obtain rfl := pure_eq_ok_iff.mp h
      decide
  · cases h

theorem isOneLine_declaratorsRendered {declarators : List Node}
    (hplain : ∀ node ∈ declarators, node.IsPlain) {rs : List Rendered}
    (h : declaratorsRendered declarators = .ok rs) : ∀ r ∈ rs, Text.IsOneLine r.text := by
  induction declarators generalizing rs with
  | nil =>
      obtain rfl := pure_eq_ok_iff.mp h
      nofun
  | cons node rest ih =>
      obtain ⟨hnode, hrest⟩ := List.forall_mem_cons.mp hplain
      cases node with
      | declarator target value =>
          rw [declaratorsRendered] at h
          obtain ⟨t, ht, h⟩ := bind_eq_ok_iff.mp h
          have htarget : Text.IsOneLine t.text :=
            target.isOneLine_rendered (hnode.child (by simp [Node.parts])) ht
          -- whatever is written for the first declarator, the others follow
          have hcons : ∀ {first : Rendered}, Text.IsOneLine first.text →
              (declaratorsRendered rest >>= fun more => pure (first :: more)) = .ok rs →
              ∀ r ∈ rs, Text.IsOneLine r.text := by
            intro first hfirst h
            obtain ⟨more, hmore, h⟩ := bind_eq_ok_iff.mp h
            obtain rfl := pure_eq_ok_iff.mp h
            exact List.forall_mem_cons.mpr ⟨hfirst, ih hrest hmore⟩
          dsimp only at h
          split at h
          · obtain ⟨v, hv, h⟩ := bind_eq_ok_iff.mp h
            split at h
            · refine hcons (Rendered.isOneLine_ofDefault htarget ?_) h
              exact value.isOneLine_rendered (hnode.child (by simp [Node.parts])) hv
            · cases h
          · exact hcons htarget h
      | unlisted given =>
          rw [declaratorsRendered] at h
          cases h
      | _ =>
          rw [declaratorsRendered] at h
          · cases h
          all_goals nofun

theorem Node.isOneLine_declarationText {node : Node} (hplain : node.IsPlain) {s : String}
    (h : node.declarationText = .ok s) : Text.IsOneLine s := by
  unfold declarationText at h
  split at h
  · obtain ⟨rs, hrs, h⟩ := bind_eq_ok_iff.mp h
    obtain ⟨targets, htargets, h⟩ := bind_eq_ok_iff.mp h
    obtain rfl := pure_eq_ok_iff.mp h
    have hkind : Value.IsOneLine _ := (everywhere_iff.mp hplain).1
    have hall := isOneLine_declaratorsRendered (fun n hn => hplain.child hn) hrs
    simp only [Text.isOneLine_append]
    exact ⟨⟨hkind.shown, by decide⟩, Rendered.isOneLine_commaList hall htargets⟩
  · cases h

end JavaScript

end PhpMigration
