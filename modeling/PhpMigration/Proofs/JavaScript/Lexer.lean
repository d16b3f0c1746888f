/-
Reading JavaScript: from characters to tokens.

A token is the longest text that can be one, blanks stand between tokens and count for nothing,
and a line break is a token of its own, because the grammar has a say in where lines may end.
Which characters make up a name is settled below 128; beyond that it depends on the edition of
Unicode, so it is left to an alphabet.

Texts that the reader has no use for have no tokens: comments, templates, literals of other bases
than ten, and escapes that denote no character.

What later files need is said of pieces of a text.  `Lexes cs ts next` says that the piece `cs`
yields the tokens `ts` whatever stands behind it, as long as the first character behind it is one
of `next`; pieces are then put together by `Lexes.append`.
-/
import PhpMigration.Proofs.Text.Digits

namespace PhpMigration.JavaScript

namespace Lexer

/-- The blanks, apart from line breaks. -/
def blanks : List Nat :=
  [0x9, 0xB, 0xC, 0x20, 0xA0, 0x1680, 0x2000, 0x2001, 0x2002, 0x2003, 0x2004, 0x2005, 0x2006,
    0x2007, 0x2008, 0x2009, 0x200A, 0x202F, 0x205F, 0x3000, 0xFEFF]

/-- The ends of lines. -/
def lineBreaks : List Nat := [0xA, 0xD, 0x2028, 0x2029]

/-- A blank that ends no line. -/
def isBlank (c : Char) : Bool := blanks.contains c.toNat

/-- The end of a line. -/
def isLineBreak (c : Char) : Bool := lineBreaks.contains c.toNat

end Lexer

/-- The characters that names begin with and go on with. -/
structure Alphabet where
  begins : Char → Bool
  continues : Char → Bool
  continues_of_begins : ∀ c, begins c = true → continues c = true
  begins_ascii : ∀ c : Char, c.toNat < 128 → begins c = (c.isAlpha || c = '_' || c = '$')
  continues_ascii : ∀ c : Char, c.toNat < 128 → continues c = (c.isAlphanum || c = '_' || c = '$')
  not_blank : ∀ c, continues c = true → Lexer.isBlank c = false ∧ Lexer.isLineBreak c = false

/-- A token. -/
inductive Token where
  /-- A name or a reserved word. -/
  | word (name : String)
  /-- The number `mantissa · 10 ^ exponent`. -/
  | number (mantissa : Nat) (exponent : Int)
  | text (value : String)
  | mark (symbol : String)
  | lineBreak
  deriving DecidableEq, Repr

namespace Lexer

/-! ### Marks -/

/-- All marks, the longer ones first. -/
def marks : List String :=
  [">>>=", "...", "===", "!==", "**=", "<<=", ">>=", ">>>", "&&=", "||=", "??=",
    "=>", "==", "!=", "<=", ">=", "&&", "||", "??", "?.", "++", "--", "+=", "-=", "*=", "/=", "%=",
    "&=", "|=", "^=", "<<", ">>", "**", "\x7b", "\x7d", "(", ")", "[", "]", ";", ",", "<", ">",
    "+", "-", "*", "/", "%", "&", "|", "^", "!", "~", "?", ":", "=", "."]

/-- What begins a comment. -/
def commentLeads : List String := ["//", "/*"]

/-- The longest mark that a text begins with, unless it is the beginning of a comment. -/
def mark? (cs : List Char) : Option (Token × List Char) :=
  if commentLeads.any fun lead => lead.toList.isPrefixOf cs then none
  else (marks.find? fun m => m.toList.isPrefixOf cs).map fun m => (.mark m, cs.drop m.toList.length)

/-! ### Numbers -/

/-- The digits behind a point, if there is one. -/
def fraction : List Char → List Char × List Char
  | '.' :: cs => (cs.takeWhile Char.isDigit, cs.dropWhile Char.isDigit)
  | cs => ([], cs)

/-- The number of some digits, of which there must be one. -/
def magnitude (cs : List Char) : Option (Nat × List Char) :=
  let digits := cs.takeWhile Char.isDigit
  if digits.isEmpty then none
  else some (Nat.ofDigitChars 10 digits 0, cs.dropWhile Char.isDigit)

/-- The power of ten behind an `e`, if there is one. -/
def exponent : List Char → Option (Int × List Char)
  | 'e' :: cs | 'E' :: cs =>
    match cs with
    | '-' :: cs => (magnitude cs).map fun (n, cs) => (-n, cs)
    | '+' :: cs => (magnitude cs).map fun (n, cs) => (n, cs)
    | cs => (magnitude cs).map fun (n, cs) => (n, cs)
  | cs => some (0, cs)

/-- The decimal number that a text begins with.  It has no needless zero before it, and no name may
follow it at once. -/
def number? (A : Alphabet) (cs : List Char) : Option (Token × List Char) :=
  let whole := cs.takeWhile Char.isDigit
  let (part, cs) := fraction (cs.dropWhile Char.isDigit)
  match exponent cs with
  | none => none
  | some (e, cs) =>
    if whole.isEmpty && part.isEmpty || 1 < whole.length && whole.head? = some '0' ||
      cs.head?.any A.continues then none
    else some (.number (Nat.ofDigitChars 10 (whole ++ part) 0) (e - part.length), cs)

/-! ### Texts in quotes -/

/-- The value of a hexadecimal digit. -/
def hexDigit? (c : Char) : Option Nat :=
  if c.isDigit then some (c.toNat - 48)
  else if 'a' ≤ c ∧ c ≤ 'f' then some (c.toNat - 87)
  else if 'A' ≤ c ∧ c ≤ 'F' then some (c.toNat - 55)
  else none

/-- The character of some hexadecimal digits; half of a pair is none. -/
def ofHex? (digits : List Char) : Option Char := do
  let values ← digits.mapM hexDigit?
  let code := values.foldl (fun n d => 16 * n + d) 0
  if code.isValidChar then some (Char.ofNat code) else none

/-- The character of so many hexadecimal digits, and the text behind them. -/
def hexEscaped? (count : Nat) (cs : List Char) : Option (Char × List Char) :=
  if cs.length < count then none
  else (ofHex? (cs.take count)).map fun c => (c, cs.drop count)

/-- The character that stands behind a backslash, and the text behind it. -/
def escaped? : List Char → Option (Char × List Char)
  | [] => none
  | 'u' :: cs => hexEscaped? 4 cs
  | 'x' :: cs => hexEscaped? 2 cs
  | 'n' :: cs => some ('\n', cs)
  | 'r' :: cs => some ('\r', cs)
  | 't' :: cs => some ('\t', cs)
  | 'b' :: cs => some (Char.ofNat 8, cs)
  | 'f' :: cs => some (Char.ofNat 12, cs)
  | 'v' :: cs => some (Char.ofNat 11, cs)
  | c :: cs => if c.isDigit || isLineBreak c then none else some (c, cs)

theorem hexEscaped?_length {count : Nat} {cs rest : List Char} {c : Char}
    (h : hexEscaped? count cs = some (c, rest)) : rest.length ≤ cs.length := by
  unfold hexEscaped? at h
  split at h
  · simp at h
  · obtain ⟨_, -, hc⟩ := Option.map_eq_some_iff.mp h
    obtain ⟨-, rfl⟩ := Prod.mk.inj hc
    rw [List.length_drop]
    omega

theorem escaped?_length {cs rest : List Char} {c : Char} (h : escaped? cs = some (c, rest)) :
    rest.length < cs.length := by
  unfold escaped? at h
  split at h
  · simp at h
  · exact Nat.lt_succ_of_le (hexEscaped?_length h)
  · exact Nat.lt_succ_of_le (hexEscaped?_length h)
  all_goals first
    | (obtain ⟨-, rfl⟩ := Prod.mk.inj (Option.some.inj h); simp)
    | (split at h
       · simp at h
       · obtain ⟨-, rfl⟩ := Prod.mk.inj (Option.some.inj h); simp)

/-- The characters up to the closing quote, and the text behind it. -/
def textFrom (quote : Char) : List Char → Option (List Char × List Char)
  | [] => none
  | c :: cs =>
    if c = quote then some ([], cs)
    else if c = '\n' || c = '\r' then none
    else if c = '\\' then
      match h : escaped? cs with
      | none => none
      | some (c, rest) =>
        have := escaped?_length h
        (textFrom quote rest).map fun (value, rest) => (c :: value, rest)
    else (textFrom quote cs).map fun (value, rest) => (c :: value, rest)
  termination_by cs => cs.length
  decreasing_by all_goals simp only [List.length_cons]; omega

theorem textFrom_length {quote : Char} {cs value rest : List Char}
    (h : textFrom quote cs = some (value, rest)) : rest.length < cs.length := by
  fun_induction textFrom quote cs generalizing value rest with
  | case1 => simp at h
  | case2 cs =>
      obtain ⟨-, rfl⟩ := Prod.mk.inj (Option.some.inj h)
      simp
  | case3 c cs hq hb => simp at h
  | case4 cs hq hb he => simp at h
  | case5 cs hq hb d more he hlt ih =>
      obtain ⟨⟨tail, left⟩, ht, hv⟩ := Option.map_eq_some_iff.mp h
      obtain ⟨-, rfl⟩ := Prod.mk.inj hv
      have := ih ht
      rw [List.length_cons]
      omega
  | case6 c cs hq hb hs ih =>
      obtain ⟨⟨tail, left⟩, ht, hv⟩ := Option.map_eq_some_iff.mp h
      obtain ⟨-, rfl⟩ := Prod.mk.inj hv
      have := ih ht
      rw [List.length_cons]
      omega

/-! ### Tokens -/

theorem length_takeWhile_add_dropWhile {α : Type} (p : α → Bool) (xs : List α) :
    (xs.takeWhile p).length + (xs.dropWhile p).length = xs.length := by
  rw [← List.length_append, List.takeWhile_append_dropWhile]

theorem fraction_length (cs : List Char) :
    (fraction cs).1.length + (fraction cs).2.length ≤ cs.length := by
  unfold fraction
  split
  · rename_i cs
    have := length_takeWhile_add_dropWhile Char.isDigit cs
    simp only [List.length_cons]
    omega
  · simp

theorem magnitude_length {cs rest : List Char} {n : Nat} (h : magnitude cs = some (n, rest)) :
    rest.length ≤ cs.length := by
  simp only [magnitude] at h
  split at h
  · simp at h
  · obtain ⟨-, rfl⟩ := Prod.mk.inj (Option.some.inj h)
    have := length_takeWhile_add_dropWhile Char.isDigit cs
    omega

theorem exponent_length {cs rest : List Char} {e : Int} (h : exponent cs = some (e, rest)) :
    rest.length ≤ cs.length := by
  unfold exponent at h
  split at h
  case h_3 =>
    obtain ⟨-, rfl⟩ := Prod.mk.inj (Option.some.inj h)
    exact Nat.le_refl _
  all_goals
    split at h
    all_goals
      obtain ⟨⟨n, left⟩, hm, hv⟩ := Option.map_eq_some_iff.mp h
      obtain ⟨-, rfl⟩ := Prod.mk.inj hv
      have := magnitude_length hm
      simp only [List.length_cons] at *
      omega

theorem number?_length {A : Alphabet} {cs rest : List Char} {t : Token}
    (h : number? A cs = some (t, rest)) : rest.length < cs.length := by
  simp only [number?] at h
  split at h
  · simp at h
  · rename_i e more he
    split at h
    · simp at h
    · rename_i hsome
      obtain ⟨-, rfl⟩ := Prod.mk.inj (Option.some.inj h)
      have hexp := exponent_length he
      have hfrac := fraction_length (cs.dropWhile Char.isDigit)
      have hsplit := length_takeWhile_add_dropWhile Char.isDigit cs
      -- Either the whole part or the fraction has a digit, which the rest lacks.
      have hdigit : 0 < (cs.takeWhile Char.isDigit).length ∨
          0 < (fraction (cs.dropWhile Char.isDigit)).1.length := by
        simp only [Bool.or_eq_true, Bool.and_eq_true, List.isEmpty_iff, not_or, not_and] at hsome
        rcases List.eq_nil_or_concat (cs.takeWhile Char.isDigit) with hnil | ⟨_, _, hcons⟩
        · exact Or.inr (List.length_pos_iff.mpr (hsome.1.1 hnil))
        · exact Or.inl (by rw [hcons]; simp)
      omega

/-- The token that begins with a character which is no blank, and the text behind it. -/
def next? (A : Alphabet) (c : Char) (cs : List Char) : Option (Token × List Char) :=
  if A.begins c then
    some (.word (String.ofList (c :: cs.takeWhile A.continues)), cs.dropWhile A.continues)
  else if c.isDigit || c = '.' && cs.head?.any Char.isDigit then number? A (c :: cs)
  else if c = '\'' || c = '"' then
    (textFrom c cs).map fun (value, cs) => (.text (String.ofList value), cs)
  else mark? (c :: cs)

theorem mark?_length {cs rest : List Char} {t : Token} (h : mark? cs = some (t, rest)) :
    rest.length < cs.length := by
  unfold mark? at h
  split at h
  · simp at h
  · obtain ⟨m, hm, hv⟩ := Option.map_eq_some_iff.mp h
    obtain ⟨-, rfl⟩ := Prod.mk.inj hv
    have hmem : m ∈ marks := List.mem_of_find?_eq_some hm
    have hpos : 0 < m.toList.length := (by decide : ∀ m ∈ marks, 0 < m.toList.length) m hmem
    have hle : m.toList.length ≤ cs.length := by
      have hp := List.find?_some hm
      exact (List.isPrefixOf_iff_prefix.mp hp).length_le
    rw [List.length_drop]
    omega

theorem next?_length {A : Alphabet} {c : Char} {cs rest : List Char} {t : Token}
    (h : next? A c cs = some (t, rest)) : rest.length < (c :: cs).length := by
  unfold next? at h
  split at h
  · obtain ⟨-, rfl⟩ := Prod.mk.inj (Option.some.inj h)
    have := length_takeWhile_add_dropWhile A.continues cs
    rw [List.length_cons]
    omega
  split at h
  · exact number?_length h
  split at h
  · obtain ⟨⟨value, left⟩, ht, hv⟩ := Option.map_eq_some_iff.mp h
    obtain ⟨-, rfl⟩ := Prod.mk.inj hv
    exact Nat.lt_succ_of_lt (textFrom_length ht)
  · exact mark?_length h

end Lexer

namespace Alphabet

open Lexer

/-- The tokens of a text. -/
def lex (A : Alphabet) : List Char → Option (List Token)
  | [] => some []
  | c :: cs =>
    if isBlank c then A.lex cs
    else if isLineBreak c then (A.lex cs).map (.lineBreak :: ·)
    else
      match h : next? A c cs with
      | none => none
      | some (t, rest) =>
        have := next?_length h
        (A.lex rest).map (t :: ·)
  termination_by cs => cs.length
  decreasing_by all_goals simp only [List.length_cons] at *; omega

/-! ### Pieces of a text -/

/-- The piece yields the tokens whatever stands behind it, as long as that begins with a character
of a kind. -/
def Lexes (A : Alphabet) (cs : List Char) (ts : List Token) (next : Char → Prop) : Prop :=
  ∀ rest, (∀ c, rest.head? = some c → next c) → A.lex (cs ++ rest) = (A.lex rest).map (ts ++ ·)

/-- Any character. -/
def anything : Char → Prop := fun _ => True

namespace Lexes

variable {A : Alphabet} {cs ds : List Char} {ts us : List Token} {next next' : Char → Prop}

theorem lex_eq (h : A.Lexes cs ts anything) (rest : List Char) :
    A.lex (cs ++ rest) = (A.lex rest).map (ts ++ ·) :=
  h rest fun _ _ => trivial

theorem mono (h : A.Lexes cs ts next) (hsub : ∀ c, next' c → next c) : A.Lexes cs ts next' :=
  fun rest hrest => h rest fun c hc => hsub c (hrest c hc)

theorem nil : A.Lexes [] [] anything := by
  intro rest _
  simp

theorem append (h : A.Lexes cs ts next) (h' : A.Lexes ds us next') (hne : ds ≠ [])
    (hhead : ∀ c, ds.head? = some c → next c) : A.Lexes (cs ++ ds) (ts ++ us) next' := by
  intro rest hrest
  have hnext : ∀ c, (ds ++ rest).head? = some c → next c := by
    intro c hc
    obtain ⟨d, ds, rfl⟩ := List.exists_cons_of_ne_nil hne
    exact hhead c hc
  rw [List.append_assoc, h _ hnext, h' rest hrest, Option.map_map]
  congr 1
  funext more
  simp

theorem append_any (h : A.Lexes cs ts anything) (h' : A.Lexes ds us next') :
    A.Lexes (cs ++ ds) (ts ++ us) next' := by
  intro rest hrest
  rw [List.append_assoc, h.lex_eq, h' rest hrest, Option.map_map]
  congr 1
  funext more
  simp

end Lexes

variable {A : Alphabet}

theorem lex_blank {c : Char} (hc : isBlank c = true) (cs : List Char) :
    A.lex (c :: cs) = A.lex cs := by
  rw [lex, if_pos hc]

theorem lex_of_next? {c : Char} {cs rest : List Char} {t : Token} (hblank : isBlank c = false)
    (hbreak : isLineBreak c = false) (h : next? A c cs = some (t, rest)) :
    A.lex (c :: cs) = (A.lex rest).map (t :: ·) := by
  rw [lex, if_neg (by simp [hblank]), if_neg (by simp [hbreak])]
  split
  · rename_i hn
    rw [h] at hn
    simp at hn
  · rename_i hn
    rw [h] at hn
    obtain ⟨rfl, rfl⟩ := Prod.mk.inj (Option.some.inj hn)
    rfl

theorem lexes_blank {c : Char} (hc : isBlank c = true) : A.Lexes [c] [] anything := by
  intro rest _
  simp [lex_blank hc]

theorem lexes_blanks {cs : List Char} (hcs : ∀ c ∈ cs, isBlank c = true) :
    A.Lexes cs [] anything := by
  induction cs with
  | nil => exact Lexes.nil
  | cons c cs ih =>
      have hc := lexes_blank (A := A) (hcs c (by simp))
      exact hc.append_any (ih fun d hd => hcs d (by simp [hd]))

theorem lexes_lineBreak : A.Lexes ['\n'] [.lineBreak] anything := by
  intro rest _
  rw [List.singleton_append, lex, if_neg (by decide), if_pos (by decide)]
  rfl

/-! ### Names -/

/-- The text is made like a name; it may be a reserved word. -/
def IsName (A : Alphabet) (name : String) : Prop :=
  ∃ c cs, name.toList = c :: cs ∧ A.begins c = true ∧ ∀ d ∈ cs, A.continues d = true

/-- A character that cannot go on in a name. -/
def EndsName (A : Alphabet) (c : Char) : Prop := A.continues c = false

theorem takeWhile_append_of_ends {p : Char → Bool} {cs rest : List Char}
    (hcs : ∀ c ∈ cs, p c = true) (hrest : ∀ c, rest.head? = some c → p c = false) :
    (cs ++ rest).takeWhile p = cs ∧ (cs ++ rest).dropWhile p = rest := by
  have hnone : rest.takeWhile p = [] ∧ rest.dropWhile p = rest := by
    cases rest with
    | nil => exact ⟨rfl, rfl⟩
    | cons c rest =>
        have hc := hrest c rfl
        exact ⟨List.takeWhile_cons_of_neg (by simp [hc]), List.dropWhile_cons_of_neg (by simp [hc])⟩
  rw [List.takeWhile_append_of_pos hcs, List.dropWhile_append_of_pos hcs, hnone.1, hnone.2]
  simp

theorem lexes_word {name : String} (h : A.IsName name) :
    A.Lexes name.toList [.word name] A.EndsName := by
  obtain ⟨c, cs, hname, hc, hcs⟩ := h
  intro rest hrest
  obtain ⟨htake, hdrop⟩ := takeWhile_append_of_ends hcs hrest
  obtain ⟨hblank, hbreak⟩ := A.not_blank c (A.continues_of_begins c hc)
  have hnext : next? A c (cs ++ rest) = some (.word name, rest) := by
    rw [next?, if_pos hc, htake, hdrop, ← hname, String.ofList_toList]
  rw [hname, List.cons_append, lex_of_next? hblank hbreak hnext]
  rfl

/-! ### Numbers -/

/-- A character that can go on neither in a name nor in a number. -/
def EndsOperand (A : Alphabet) (c : Char) : Prop := A.continues c = false ∧ c ≠ '.'

theorem isDigit_iff {c : Char} : c.isDigit = true ↔ 48 ≤ c.toNat ∧ c.toNat ≤ 57 := by
  simp [Char.isDigit, UInt32.le_iff_toNat_le]

theorem isAlpha_iff {c : Char} : c.isAlpha = true ↔
    65 ≤ c.toNat ∧ c.toNat ≤ 90 ∨ 97 ≤ c.toNat ∧ c.toNat ≤ 122 := by
  have hletter : c.isAlpha = (decide (c.val ≥ 65 ∧ c.val ≤ 90) ||
      decide (c.val ≥ 97) && decide (c.val ≤ 122)) := rfl
  simp [hletter, UInt32.le_iff_toNat_le]

theorem continues_of_isDigit {c : Char} (h : c.isDigit = true) : A.continues c = true := by
  have := isDigit_iff.mp h
  rw [A.continues_ascii c (by omega), Char.isAlphanum, h]
  simp

theorem not_begins_of_isDigit {c : Char} (h : c.isDigit = true) : A.begins c = false := by
  have hrange := isDigit_iff.mp h
  rw [A.begins_ascii c (by omega)]
  have halpha : c.isAlpha = false := by
    rw [Bool.eq_false_iff]
    intro hletter
    have := isAlpha_iff.mp hletter
    omega
  have hline : c ≠ '_' := by
    rintro rfl
    exact absurd hrange (by decide)
  have hdollar : c ≠ '$' := by
    rintro rfl
    exact absurd hrange (by decide)
  simp [halpha, hline, hdollar]

theorem exponent_of_ends {cs : List Char} (h : ∀ c, cs.head? = some c → A.EndsName c) :
    exponent cs = some (0, cs) := by
  unfold exponent
  split
  · exact absurd (h _ rfl) (by rw [EndsName, A.continues_ascii _ (by decide)]; decide)
  · exact absurd (h _ rfl) (by rw [EndsName, A.continues_ascii _ (by decide)]; decide)
  · rfl

theorem fraction_of_ends {cs : List Char} (h : ∀ c, cs.head? = some c → A.EndsOperand c) :
    fraction cs = ([], cs) := by
  unfold fraction
  split
  · exact absurd rfl (h _ rfl).2
  · rfl

theorem next?_number {n : Nat} {c : Char} {cs rest : List Char} (hcs : Nat.toDigits 10 n = c :: cs)
    (hrest : ∀ c, rest.head? = some c → A.EndsOperand c) :
    next? A c (cs ++ rest) = some (.number n 0, rest) := by
  have hdigits : ∀ d ∈ c :: cs, d.isDigit = true := by
    intro d hd
    exact Text.isDigit_of_mem_toDigits (hcs ▸ hd)
  have hends : ∀ d, rest.head? = some d → d.isDigit = false := by
    intro d hd
    have hnot := (hrest d hd).1
    rw [Bool.eq_false_iff]
    intro hdigit
    rw [continues_of_isDigit hdigit] at hnot
    simp at hnot
  obtain ⟨htake, hdrop⟩ := takeWhile_append_of_ends hdigits hends
  rw [List.cons_append] at htake hdrop
  -- A whole number has a leading zero only if it is zero, and then nothing else.
  have hzero : ¬(1 < (c :: cs).length ∧ c = '0') := by
    rintro ⟨hlong, rfl⟩
    rcases Nat.eq_zero_or_pos n with rfl | hpos
    · rw [← hcs] at hlong
      exact absurd hlong (by decide)
    · exact Text.toDigits_head_ne_zero hpos (by rw [hcs]; rfl)
  have hfollow : rest.head?.any A.continues = false := by
    rw [Bool.eq_false_iff]
    intro hany
    obtain ⟨d, hd, hcont⟩ := (Option.any_eq_true _ _).mp hany
    rw [(hrest d hd).1] at hcont
    simp at hcont
  have hc := hdigits c (by simp)
  have hvalue : Nat.ofDigitChars 10 (c :: cs) 0 = n := by rw [← hcs, Nat.ofDigitChars_ten_toDigits]
  rw [next?, if_neg (by simp [not_begins_of_isDigit hc]), if_pos (by simp [hc]), number?]
  simp only [htake, hdrop, fraction_of_ends hrest,
    exponent_of_ends fun c hc => (hrest c hc).1, hfollow,
    List.append_nil, hvalue]
  rw [if_neg (by simpa using hzero)]
  rfl

theorem lexes_number (n : Nat) : A.Lexes (toString n).toList [.number n 0] A.EndsOperand := by
  intro rest hrest
  obtain ⟨c, cs, htext, hc⟩ := Text.toString_head n
  obtain ⟨hblank, hbreak⟩ := A.not_blank c (continues_of_isDigit hc)
  have hcs : Nat.toDigits 10 n = c :: cs := by rw [← Text.toList_toString, htext]
  rw [htext, List.cons_append, lex_of_next? hblank hbreak (next?_number hcs hrest)]
  rfl

/-! ### Marks -/

/-- The characters that make a longer mark or a comment of the mark. -/
def followers (m : String) : List Char :=
  (marks ++ commentLeads).filterMap fun s =>
    if m.toList.isPrefixOf s.toList then s.toList[m.toList.length]? else none

theorem blank_not_mem_followers (m : String) : ' ' ∉ followers m := by
  intro h
  obtain ⟨s, hs, hnext⟩ := List.mem_filterMap.mp h
  have hall : ∀ s ∈ marks ++ commentLeads, ' ' ∉ s.toList := by decide
  split at hnext
  · exact hall s hs (List.mem_of_getElem? hnext)
  · cases hnext

/-- The character does not make a longer mark, a comment or a number of the mark. -/
structure EndsMark (m : String) (c : Char) : Prop where
  no_longer : c ∉ followers m
  no_number : m = "." → c.isDigit = false

theorem mem_followers {m s : String} {c : Char} (hs : s ∈ marks ++ commentLeads)
    (h : m.toList ++ [c] <+: s.toList) : c ∈ followers m := by
  obtain ⟨more, hmore⟩ := h
  have hprefix : m.toList.isPrefixOf s.toList = true := by
    rw [List.isPrefixOf_iff_prefix, ← hmore, List.append_assoc]
    exact List.prefix_append _ _
  refine List.mem_filterMap.mpr ⟨s, hs, ?_⟩
  rw [if_pos hprefix, ← hmore]
  simp

/-- No mark before another one in the table begins the other one. -/
theorem marks_pairwise : marks.Pairwise fun m n => m.toList.isPrefixOf n.toList = false := by
  decide +kernel

/-- A text that begins with a mark, and no longer one, begins with the parts of that mark only. -/
theorem prefix_of_prefix_append {m s : String} {rest : List Char}
    (hs : s ∈ marks ++ commentLeads) (hrest : ∀ c, rest.head? = some c → EndsMark m c)
    (h : s.toList.isPrefixOf (m.toList ++ rest) = true) : s.toList.isPrefixOf m.toList = true := by
  rw [List.isPrefixOf_iff_prefix] at h ⊢
  rcases List.prefix_or_prefix_of_prefix h (List.prefix_append m.toList rest) with hle | hge
  · exact hle
  · obtain ⟨tail, htail⟩ := hge
    cases tail with
    | nil =>
        rw [List.append_nil] at htail
        exact htail ▸ List.prefix_refl _
    | cons c tail =>
        exfalso
        rw [← htail, List.prefix_append_right_inj] at h
        obtain ⟨more, hmore⟩ := h
        refine (hrest c (by rw [← hmore]; rfl)).no_longer (mem_followers hs ?_)
        rw [← htail]
        exact ⟨tail, by simp⟩

theorem mark?_append {m : String} (hm : m ∈ marks) {rest : List Char}
    (hrest : ∀ c, rest.head? = some c → EndsMark m c) :
    mark? (m.toList ++ rest) = some (.mark m, rest) := by
  have hcomment : ∀ lead ∈ commentLeads, ¬lead.toList.isPrefixOf (m.toList ++ rest) := by
    intro lead hlead hprefix
    have hshort := prefix_of_prefix_append (List.mem_append_right _ hlead) hrest hprefix
    exact absurd hshort ((by decide : ∀ lead ∈ commentLeads, ∀ m ∈ marks,
      ¬lead.toList.isPrefixOf m.toList = true) lead hlead m hm)
  have hfind : marks.find? (fun s => s.toList.isPrefixOf (m.toList ++ rest)) = some m := by
    obtain ⟨before, after, hsplit⟩ := List.append_of_mem hm
    refine List.find?_eq_some_iff_append.mpr ⟨?_, before, after, hsplit, ?_⟩
    · exact List.isPrefixOf_iff_prefix.mpr (List.prefix_append _ _)
    · intro s hs
      rw [Bool.not_eq_true', Bool.eq_false_iff]
      intro hprefix
      have hmem : s ∈ marks := by rw [hsplit]; exact List.mem_append_left _ hs
      have hshort := prefix_of_prefix_append (List.mem_append_left _ hmem) hrest hprefix
      have hpair := marks_pairwise
      rw [hsplit, List.pairwise_append] at hpair
      have := hpair.2.2 s hs m (by simp)
      rw [hshort] at this
      simp at this
  rw [mark?, if_neg (by simpa using hcomment), hfind]
  simp

theorem lexes_mark {m : String} (hm : m ∈ marks) : A.Lexes m.toList [.mark m] (EndsMark m) := by
  intro rest hrest
  -- What a mark begins with begins no other token.
  have hfirst : ∃ c cs, m.toList = c :: cs ∧ isBlank c = false ∧ isLineBreak c = false ∧
      c.toNat < 128 ∧ (c.isAlpha || c = '_' || c = '$') = false ∧ c.isDigit = false ∧
      c ≠ '\'' ∧ c ≠ '"' ∧ (c = '.' → m = "." ∨ cs.head? = some '.') := by
    have hall : ∀ m ∈ marks, m.toList.head?.any (fun c => !isBlank c && !isLineBreak c &&
        decide (c.toNat < 128) && !(c.isAlpha || c = '_' || c = '$') && !c.isDigit &&
        decide (c ≠ '\'') && decide (c ≠ '"') &&
        (c ≠ '.' || m = "." || m.toList.tail.head? = some '.')) = true := by decide
    obtain ⟨c, hc, h⟩ := (Option.any_eq_true _ _).mp (hall m hm)
    obtain ⟨cs, hcs⟩ := List.head?_eq_some_iff.mp hc
    refine ⟨c, cs, hcs, ?_⟩
    rw [hcs] at h
    simp only [List.tail_cons, Bool.and_eq_true, Bool.not_eq_true', decide_eq_true_eq,
      Bool.or_eq_true] at h
    obtain ⟨⟨⟨⟨⟨⟨⟨hb, hl⟩, ha⟩, hw⟩, hd⟩, hq⟩, hqq⟩, hp⟩ := h
    refine ⟨hb, hl, ha, hw, hd, hq, hqq, fun heq => ?_⟩
    rcases hp with (hp | hp) | hp
    · exact absurd heq hp
    · exact Or.inl hp
    · exact Or.inr (of_decide_eq_true hp)
  obtain ⟨c, cs, hcs, hblank, hbreak, hascii, hword, hdigit, hquote, hdouble, hpoint⟩ := hfirst
  have hnumber : (c.isDigit || c = '.' && (cs ++ rest).head?.any Char.isDigit) = false := by
    rw [hdigit, Bool.false_or, Bool.and_eq_false_iff, decide_eq_false_iff_not]
    rcases Decidable.em (c = '.') with hdot | hdot
    · right
      rcases hpoint hdot with rfl | hmore
      · have hnil : cs = [] := by
          rw [hdot] at hcs
          exact (List.cons.inj hcs).2.symm
        rw [hnil, List.nil_append, Bool.eq_false_iff]
        intro hany
        obtain ⟨d, hd, hdd⟩ := (Option.any_eq_true _ _).mp hany
        rw [(hrest d hd).no_number rfl] at hdd
        simp at hdd
      · rw [List.head?_append, hmore]
        rfl
    · exact Or.inl hdot
  have hnext : next? A c (cs ++ rest) = some (.mark m, rest) := by
    rw [next?, if_neg (by rw [A.begins_ascii c hascii, hword]; simp), hnumber, if_neg (by simp),
      if_neg (by simp [hquote, hdouble]), ← List.cons_append, ← hcs, mark?_append hm hrest]
  rw [hcs, List.cons_append, lex_of_next? hblank hbreak hnext]
  rfl

/-- Marks that no character makes longer. -/
def solitaryMarks : List String :=
  ["\x7b", "\x7d", "(", ")", "[", "]", ";", ",", ":", "~", "++", "--"]

theorem lexes_solitary {m : String} (hm : m ∈ solitaryMarks) :
    A.Lexes m.toList [.mark m] anything := by
  have hall : ∀ m ∈ solitaryMarks, m ∈ marks ∧ m ≠ "." ∧ followers m = [] := by decide +kernel
  obtain ⟨hmark, hdot, hfollow⟩ := hall m hm
  refine (lexes_mark hmark).mono fun c _ => ⟨?_, fun heq => absurd heq hdot⟩
  rw [hfollow]
  simp

/-! ### Fixed texts -/

/-- The text is made of letters. -/
def isLetters (s : String) : Bool := !s.isEmpty && s.toList.all Char.isAlpha

theorem isName_of_isLetters {name : String} (h : isLetters name = true) : A.IsName name := by
  rw [isLetters, Bool.and_eq_true, Bool.not_eq_true', List.all_eq_true] at h
  have hall : ∀ d ∈ name.toList, A.begins d = true := by
    intro d hd
    have hletter := h.2 d hd
    have := isAlpha_iff.mp hletter
    rw [A.begins_ascii d (by omega), hletter]
    rfl
  cases hname : name.toList with
  | nil =>
      have : name = "" := by simpa using hname
      rw [this] at h
      exact absurd h.1 (by decide)
  | cons c cs =>
      rw [hname] at hall
      refine ⟨c, cs, hname, hall c (by simp), ?_⟩
      intro d hd
      exact A.continues_of_begins d (hall d (by simp [hd]))

theorem continues_of_not_alphanum {c : Char} (hc : c.toNat < 128)
    (h : (c.isAlphanum || c = '_' || c = '$') = false) : A.continues c = false := by
  rw [A.continues_ascii c hc, h]

/-! ### The smallest alphabet -/

/-- The letters, the digits, the line and the dollar below 128, and no other character. -/
def ascii : Alphabet where
  begins c := c.toNat < 128 && (c.isAlpha || c = '_' || c = '$')
  continues c := c.toNat < 128 && (c.isAlphanum || c = '_' || c = '$')
  continues_of_begins c h := by
    simp only [Bool.and_eq_true, decide_eq_true_eq, Char.isAlphanum] at h ⊢
    refine ⟨h.1, ?_⟩
    simp only [Bool.or_eq_true] at h ⊢
    rcases h.2 with (hletter | hline) | hdollar
    · exact Or.inl (Or.inl (Or.inl hletter))
    · exact Or.inl (Or.inr hline)
    · exact Or.inr hdollar
  begins_ascii c h := by simp [h]
  continues_ascii c h := by simp [h]
  not_blank c h := by
    have hsmall : ∀ n < 128, ((Char.ofNat n).isAlphanum || Char.ofNat n = '_' ||
        Char.ofNat n = '$') = true →
        isBlank (Char.ofNat n) = false ∧ isLineBreak (Char.ofNat n) = false := by decide
    simp only [Bool.and_eq_true, decide_eq_true_eq] at h
    have := hsmall c.toNat h.1
    rw [Char.ofNat_toNat] at this
    exact this h.2

end Alphabet

end PhpMigration.JavaScript
