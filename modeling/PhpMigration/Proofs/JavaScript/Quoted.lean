/-
A quoted text is a literal that is read back as that text.

A literal is made by two replacements in a text that is already escaped, one of which takes away
what the other could have put there.  They do not get in each other's way, because an escaped text
falls into pieces, one for each of its characters, and no piece begins with a double quote: so a
backslash before a double quote always belongs to it, and a piece that is passed over is passed over
as a whole.  What comes out falls into pieces again (`quote_eq`), and a reader takes in one piece after
the other (`textFrom_escape`).

A single quote ends a literal unless it is escaped, that is, unless the backslashes right before it
are odd in number.  A piece leaves the number of backslashes at its end even if it was even before.
-/
import PhpMigration.JavaScript.Quoted
import PhpMigration.Proofs.JavaScript.Lexer

namespace PhpMigration

/-! ### Replacements -/

namespace Text

theorem replaceAll_single (a : Char) (new cs : List Char) :
    replaceAll [a] new cs = cs.flatMap fun c => if c = a then new else [c] := by
  unfold replaceAll
  induction cs with
  | nil => rfl
  | cons c cs ih =>
      rw [replaceFrom, List.flatMap_cons]
      by_cases hc : c = a
      · rw [if_pos (by simp [hc]), if_pos hc, ← ih]
        rfl
      · rw [if_neg (by simp [Ne.symm hc]), if_neg hc, ih]
        rfl

section

variable {a b : Char} {new piece rest : List Char}

theorem replaceAll_pair_match (a b : Char) (new rest : List Char) :
    replaceAll [a, b] new (a :: b :: rest) = new ++ replaceAll [a, b] new rest := by
  unfold replaceAll
  rw [replaceFrom, if_pos (by simp)]
  rfl

/-- A piece is passed over if the second character of the pair is neither in it nor right behind
it. -/
theorem replaceAll_pair_append (hpiece : b ∉ piece) (hrest : rest.head? ≠ some b) :
    replaceAll [a, b] new (piece ++ rest) = piece ++ replaceAll [a, b] new rest := by
  unfold replaceAll
  induction piece with
  | nil => rfl
  | cons c piece ih =>
      obtain ⟨-, hpiece⟩ := not_or.mp (mt List.mem_cons.mpr hpiece)
      have hnext : (piece ++ rest).head? ≠ some b := by
        cases piece with
        | nil => exact hrest
        | cons d piece => simpa using (Ne.symm (not_or.mp (mt List.mem_cons.mpr hpiece)).1)
      have hno : ¬ [a, b].isPrefixOf (c :: (piece ++ rest)) = true := by
        cases hpieces : piece ++ rest with
        | nil => simp
        | cons d more =>
            rw [hpieces] at hnext
            simp only [List.isPrefixOf_cons_cons, List.isPrefixOf_nil_left, Bool.and_true,
              Bool.and_eq_true, beq_iff_eq, not_and]
            rintro - rfl
            exact hnext rfl
      rw [List.cons_append, replaceFrom, if_neg hno, ih hpiece]
      rfl

end

end Text

/-! ### Pieces -/

/-- What an escape is named by is a letter. -/
theorem isAlphanum_of_mem_letters {c : Char} (h : c ∈ ['n', 'r', 't', 'b', 'f', 'u']) :
    c.isAlphanum = true :=
  List.all_eq_true.mp (by decide : ['n', 'r', 't', 'b', 'f', 'u'].all Char.isAlphanum = true) c h

namespace Json

theorem plainChar_cases (c : Char) :
    (c = '"' ∧ plainChar c = ['\\', '"']) ∨ (c = '\\' ∧ plainChar c = ['\\', '\\']) ∨
      (plainChar c = [c] ∧ c ≠ '"' ∧ c ≠ '\\' ∧ 32 ≤ c.toNat) ∨
      ∃ d more, plainChar c = '\\' :: d :: more ∧ d ∈ ['n', 'r', 't', 'b', 'f', 'u'] ∧
        ∀ e ∈ more, e.isAlphanum = true := by
  have hcode : ∀ n < 32, ∃ more, unitEscape n = '\\' :: 'u' :: more ∧
      ∀ e ∈ more, e.isAlphanum = true := by
    intro n hn
    refine ⟨_, rfl, List.all_eq_true.mp ?_⟩
    exact (by decide : ∀ n < 32, (Text.hexDigits 4 n).all Char.isAlphanum = true) n hn
  unfold plainChar
  split
  case isTrue h =>
    rcases (by simpa using h : c = '"' ∨ c = '\\') with rfl | rfl
    · exact .inl ⟨rfl, rfl⟩
    · exact .inr (.inl ⟨rfl, rfl⟩)
  case isFalse hplain =>
    obtain ⟨hquote, hslash⟩ : c ≠ '"' ∧ c ≠ '\\' := by simpa using hplain
    refine .inr (.inr ?_)
    split
    · exact .inr ⟨_, [], rfl, by simp, by simp⟩
    split
    · exact .inr ⟨_, [], rfl, by simp, by simp⟩
    split
    · exact .inr ⟨_, [], rfl, by simp, by simp⟩
    split
    · exact .inr ⟨_, [], rfl, by simp, by simp⟩
    split
    · exact .inr ⟨_, [], rfl, by simp, by simp⟩
    split
    case isTrue h =>
      obtain ⟨more, heq, hmore⟩ := hcode _ h
      exact .inr ⟨_, more, heq, by simp, hmore⟩
    case isFalse h => exact .inl ⟨rfl, hquote, hslash, by omega⟩

/-- No piece begins with a double quote. -/
theorem head?_plainChars (cs : List Char) : (cs.flatMap plainChar).head? ≠ some '"' := by
  cases cs with
  | nil => simp
  | cons c cs =>
      rcases plainChar_cases c with ⟨rfl, h⟩ | ⟨rfl, h⟩ | ⟨h, hquote, -, -⟩ | ⟨d, more, h, -, -⟩
      · simp [h]
      · simp [h]
      · simpa [h] using hquote
      · simp [h]

end Json

namespace JavaScript

namespace Quoted

/-- A character inside a literal. -/
def escape (c : Char) : List Char :=
  if c = '\'' then ['\\', '\'']
  else if c = '"' then ['"']
  else Json.plainChar c

theorem escape_of_ne {c : Char} (hsingle : c ≠ '\'') (hdouble : c ≠ '"') :
    escape c = Json.plainChar c := by
  rw [escape, if_neg hsingle, if_neg hdouble]

/-- A piece is a quote with what must stand before it, a pair of backslashes, a character that
stands for itself, or a backslash with letters and digits. -/
theorem escape_cases (c : Char) :
    (c = '\'' ∧ escape c = ['\\', '\'']) ∨ (c = '\\' ∧ escape c = ['\\', '\\']) ∨
      (escape c = [c] ∧ c ≠ '\'' ∧ c ≠ '\\' ∧ 32 ≤ c.toNat) ∨
      ∃ d more, escape c = '\\' :: d :: more ∧ d ∈ ['n', 'r', 't', 'b', 'f', 'u'] ∧
        ∀ e ∈ more, e.isAlphanum = true := by
  by_cases hsingle : c = '\''
  · exact .inl ⟨hsingle, if_pos hsingle⟩
  by_cases hdouble : c = '"'
  · subst hdouble
    exact .inr (.inr (.inl ⟨rfl, by decide, by decide, by decide⟩))
  · rw [escape_of_ne hsingle hdouble]
    rcases Json.plainChar_cases c with ⟨h, -⟩ | h | ⟨h, -, hslash, hlow⟩ | h
    · exact absurd h hdouble
    · exact .inr (.inl h)
    · exact .inr (.inr (.inl ⟨h, hsingle, hslash, hlow⟩))
    · exact .inr (.inr (.inr h))

/-- The double quotes of an escaped text are stripped of their backslashes, and nothing else is
touched. -/
theorem replaceAll_plainChars (cs : List Char) :
    Text.replaceAll ['\\', '"'] ['"'] (cs.flatMap Json.plainChar) =
      cs.flatMap fun c => if c = '"' then ['"'] else Json.plainChar c := by
  induction cs with
  | nil => rfl
  | cons c cs ih =>
      rw [List.flatMap_cons, List.flatMap_cons, ← ih]
      have hrest := Json.head?_plainChars cs
      have hpass (hc : c ≠ '"') (hpiece : '"' ∉ Json.plainChar c) :
          Text.replaceAll ['\\', '"'] ['"'] (Json.plainChar c ++ cs.flatMap Json.plainChar) =
            (if c = '"' then ['"'] else Json.plainChar c) ++
              Text.replaceAll ['\\', '"'] ['"'] (cs.flatMap Json.plainChar) := by
        rw [if_neg hc, Text.replaceAll_pair_append hpiece hrest]
      rcases Json.plainChar_cases c with
        ⟨rfl, h⟩ | ⟨rfl, h⟩ | ⟨h, hquote, -, -⟩ | ⟨d, more, h, hd, hmore⟩
      · exact Text.replaceAll_pair_match ..
      · exact hpass (by decide) (by simp [h])
      · exact hpass hquote (by simpa [h] using Ne.symm hquote)
      · refine hpass ?_ ?_
        · rintro rfl
          simp [Json.plainChar] at h
          simp [← h.1] at hd
        · rw [h]
          simp only [List.mem_cons, not_or]
          exact ⟨by decide, fun e => by simp [← e] at hd, fun e => by simpa using hmore _ e⟩

theorem requote_plainChars (cs : List Char) :
    requote (cs.flatMap Json.plainChar) = cs.flatMap escape := by
  rw [requote, replaceAll_plainChars, Text.replaceAll_single, List.flatMap_assoc]
  congr 1
  funext c
  by_cases hdouble : c = '"'
  · subst hdouble
    rfl
  rw [if_neg hdouble]
  by_cases hsingle : c = '\''
  · subst hsingle
    rfl
  have hpass : '\'' ∉ Json.plainChar c := by
    rcases Json.plainChar_cases c with ⟨-, h⟩ | ⟨-, h⟩ | ⟨h, -⟩ | ⟨d, more, h, hd, hmore⟩
    · simp [h]
    · simp [h]
    · simpa [h] using Ne.symm hsingle
    · rw [h]
      simp only [List.mem_cons, not_or]
      exact ⟨by decide, fun e => by simp [← e] at hd, fun e => by simpa using hmore _ e⟩
  rw [escape_of_ne hsingle hdouble]
  have hkept : (Json.plainChar c).map (fun d => if d = '\'' then ['\\', '\''] else [d]) =
      (Json.plainChar c).map fun d => [d] :=
    List.map_congr_left fun d hd => if_neg (ne_of_mem_of_not_mem hd hpass)
  rw [List.flatMap_def, hkept, ← List.flatMap_def, List.flatMap_singleton']

/-- The characters between the quotes of a literal, piece by piece. -/
theorem quote_eq (s : String) :
    (quote s).toList = '\'' :: (s.toList.flatMap escape ++ ['\'']) := by
  rw [quote, quoteValue, Json.line, List.drop_one, List.tail_cons, List.dropLast_concat,
    requote_plainChars, String.toList_ofList]

/-! ### Backslashes before a quote -/

/-- The backslashes that a text ends with. -/
def backslashes (cs : List Char) : Nat := (cs.reverse.takeWhile (· = '\\')).length

/-- Every single quote of a text is escaped: the backslashes right before it are odd in number. -/
def IsGuarded (cs : List Char) : Prop :=
  ∀ before after, cs = before ++ '\'' :: after → backslashes before % 2 = 1

theorem backslashes_concat (cs : List Char) (c : Char) :
    backslashes (cs ++ [c]) = if c = '\\' then backslashes cs + 1 else 0 := by
  unfold backslashes
  rw [List.reverse_append, List.reverse_singleton, List.singleton_append, List.takeWhile_cons]
  split <;> simp_all

theorem backslashes_append_of_ne {c : Char} (cs more : List Char) (hc : c ≠ '\\') :
    backslashes (cs ++ (more ++ [c])) = 0 := by
  rw [← List.append_assoc, backslashes_concat, if_neg hc]

theorem isGuarded_nil : IsGuarded [] := by
  intro before after h
  simp at h

theorem IsGuarded.concat {cs : List Char} {c : Char} (h : IsGuarded cs)
    (hc : c = '\'' → backslashes cs % 2 = 1) : IsGuarded (cs ++ [c]) := by
  intro before after heq
  rcases List.eq_nil_or_concat after with rfl | ⟨after, d, rfl⟩
  · obtain ⟨rfl, hlast⟩ := List.append_inj' heq rfl
    exact hc (by simpa using hlast)
  · have hlast : cs ++ [c] = (before ++ '\'' :: after) ++ [d] := by simpa using heq
    exact h before after (List.append_inj' hlast rfl).1

theorem IsGuarded.append {cs more : List Char} (h : IsGuarded cs) (hmore : '\'' ∉ more) :
    IsGuarded (cs ++ more) := by
  induction more generalizing cs with
  | nil => rwa [List.append_nil]
  | cons c more ih =>
      obtain ⟨hc, hmore⟩ := not_or.mp (mt List.mem_cons.mpr hmore)
      rw [List.append_cons]
      exact ih (h.concat fun e => absurd e.symm hc) hmore

/-- A piece leaves an even number of backslashes even, and its quote is escaped. -/
theorem IsGuarded.append_escape {cs : List Char} (h : IsGuarded cs) (heven : backslashes cs % 2 = 0)
    (c : Char) :
    IsGuarded (cs ++ escape c) ∧ backslashes (cs ++ escape c) % 2 = 0 := by
  have hslash : backslashes (cs ++ ['\\']) = backslashes cs + 1 := by
    rw [backslashes_concat, if_pos rfl]
  rcases escape_cases c with
    ⟨rfl, hc⟩ | ⟨rfl, hc⟩ | ⟨hc, hquote, hback, -⟩ | ⟨d, more, hc, hd, hmore⟩
  · rw [hc, List.append_cons]
    refine ⟨(h.append (by decide)).concat fun _ => by omega, ?_⟩
    rw [backslashes_concat, if_neg (by decide)]
  · rw [hc]
    refine ⟨h.append (by decide), ?_⟩
    rw [List.append_cons, backslashes_concat, if_pos rfl]
    omega
  · rw [hc]
    refine ⟨h.append (by simpa using Ne.symm hquote), ?_⟩
    rw [backslashes_concat, if_neg hback]
  · rw [hc]
    have hplain : ∀ e ∈ d :: more, e.isAlphanum = true := by
      rintro e (_ | ⟨_, he⟩)
      · exact isAlphanum_of_mem_letters hd
      · exact hmore e he
    obtain ⟨front, last, hlast⟩ := (List.eq_nil_or_concat (d :: more)).resolve_left (by simp)
    rw [List.concat_eq_append] at hlast
    refine ⟨h.append ?_, ?_⟩
    · rintro (_ | ⟨_, he⟩)
      simpa using hplain _ he
    · have hne : last ≠ '\\' := by
        rintro rfl
        simpa using hplain '\\' (by simp [hlast])
      rw [hlast, ← List.cons_append, backslashes_append_of_ne _ _ hne]

theorem isGuarded_escaped (cs : List Char) :
    IsGuarded (cs.flatMap escape) ∧ backslashes (cs.flatMap escape) % 2 = 0 := by
  have hrun (pre : List Char) (h : IsGuarded pre) (heven : backslashes pre % 2 = 0) :
      IsGuarded (pre ++ cs.flatMap escape) ∧ backslashes (pre ++ cs.flatMap escape) % 2 = 0 := by
    induction cs generalizing pre with
    | nil => exact ⟨by simpa using h, by simpa using heven⟩
    | cons c cs ih =>
        obtain ⟨hpiece, hend⟩ := h.append_escape heven c
        rw [List.flatMap_cons, ← List.append_assoc]
        exact ih _ hpiece hend
  exact hrun [] isGuarded_nil rfl

/-- No piece breaks the line. -/
theorem not_lineBreak_of_mem_escape {c d : Char} (h : d ∈ escape c) : d ≠ '\n' ∧ d ≠ '\r' := by
  have hplain (hd : d.isAlphanum = true) : d ≠ '\n' ∧ d ≠ '\r' := by
    constructor
    all_goals rintro rfl; simp at hd
  rcases escape_cases c with ⟨-, hc⟩ | ⟨-, hc⟩ | ⟨hc, -, -, hlow⟩ | ⟨e, more, hc, he, hmore⟩
  · rw [hc] at h
    simp only [List.mem_cons, List.not_mem_nil, or_false] at h
    rcases h with rfl | rfl <;> decide
  · rw [hc] at h
    simp only [List.mem_cons, List.not_mem_nil, or_false] at h
    rcases h with rfl | rfl <;> decide
  · rw [hc, List.mem_singleton] at h
    constructor
    all_goals rintro rfl; subst h; exact absurd hlow (by decide)
  · rw [hc] at h
    rcases List.mem_cons.mp h with rfl | h
    · decide
    rcases List.mem_cons.mp h with rfl | h
    · exact hplain (isAlphanum_of_mem_letters he)
    · exact hplain (hmore d h)

end Quoted

namespace Lexer

theorem escaped?_unit {n : Nat} (hn : n < 32) (cs : List Char) :
    escaped? ('u' :: (Text.hexDigits 4 n ++ cs)) = some (Char.ofNat n, cs) := by
  have hvalue : ofHex? (Text.hexDigits 4 n) = some (Char.ofNat n) :=
    (by decide : ∀ m < 32, ofHex? (Text.hexDigits 4 m) = some (Char.ofNat m)) n hn
  have htake : (Text.hexDigits 4 n ++ cs).take 4 = Text.hexDigits 4 n := rfl
  have hdrop : (Text.hexDigits 4 n ++ cs).drop 4 = cs := rfl
  rw [escaped?, hexEscaped?, if_neg (by simp [Text.hexDigits]), htake, hdrop, hvalue]
  rfl

theorem textFrom_backslash {c : Char} {cs rest : List Char} (h : escaped? cs = some (c, rest)) :
    textFrom '\'' ('\\' :: cs) =
      (textFrom '\'' rest).map fun (value, more) => (c :: value, more) := by
  rw [textFrom, if_neg (by decide), if_neg (by decide), if_pos rfl]
  split
  · rename_i hn
    rw [h] at hn
    simp at hn
  · rename_i hn
    rw [h] at hn
    obtain ⟨rfl, rfl⟩ := Prod.mk.inj (Option.some.inj hn)
    rfl

/-- However a character is written, it is read back. -/
theorem textFrom_escape (c : Char) (cs : List Char) :
    textFrom '\'' (Quoted.escape c ++ cs) =
      (textFrom '\'' cs).map fun (value, rest) => (c :: value, rest) := by
  unfold Quoted.escape
  split
  case isTrue h => subst h; exact textFrom_backslash rfl
  rename_i hquote
  split
  case isTrue h =>
    subst h
    rw [List.singleton_append, textFrom, if_neg (by decide), if_neg (by decide),
      if_neg (by decide)]
  unfold Json.plainChar
  split
  case isTrue h =>
    rcases (by simpa using h : c = '"' ∨ c = '\\') with rfl | rfl
    all_goals exact textFrom_backslash rfl
  rename_i hslash
  split
  case isTrue h => subst h; exact textFrom_backslash rfl
  split
  case isTrue h => subst h; exact textFrom_backslash rfl
  split
  case isTrue h => subst h; exact textFrom_backslash rfl
  split
  case isTrue h => subst h; exact textFrom_backslash rfl
  split
  case isTrue h => subst h; exact textFrom_backslash rfl
  split
  case isTrue h =>
    rw [Json.unitEscape, List.cons_append, List.cons_append,
      textFrom_backslash (escaped?_unit h cs), Char.ofNat_toNat]
  case isFalse hline hreturn _ _ _ _ =>
    rw [List.singleton_append, textFrom, if_neg hquote, if_neg (by simp [hline, hreturn]),
      if_neg (by simpa using (not_or.mp (by simpa using hslash)).2)]

theorem textFrom_escaped (cs rest : List Char) :
    textFrom '\'' (cs.flatMap Quoted.escape ++ '\'' :: rest) = some (cs, rest) := by
  induction cs with
  | nil => rw [List.flatMap_nil, List.nil_append, textFrom, if_pos rfl]
  | cons c cs ih =>
      rw [List.flatMap_cons, List.append_assoc, textFrom_escape, ih]
      rfl

end Lexer

open Lexer in
theorem Alphabet.lexes_quote (A : Alphabet) (s : String) :
    A.Lexes (Quoted.quote s).toList [.text s] anything := by
  intro rest _
  have hnext : next? A '\'' (s.toList.flatMap Quoted.escape ++ '\'' :: rest) =
      some (.text s, rest) := by
    rw [next?, if_neg (by rw [A.begins_ascii _ (by decide)]; decide), if_neg (by simp),
      if_pos (by decide), textFrom_escaped]
    simp
  have htext : (Quoted.quote s).toList ++ rest =
      '\'' :: (s.toList.flatMap Quoted.escape ++ '\'' :: rest) := by
    simp [Quoted.quote_eq]
  rw [htext, A.lex_of_next? (by decide) (by decide) hnext]
  rfl

/-! ### Literals -/

/-- **A quoted text is one literal that denotes the text.**

Between its quotes every single quote is escaped and no line is broken, the quote at its end is not
escaped, and whatever stands behind the literal, a reader takes in the text and stops there. -/
theorem isLiteral_quote (s : String) :
    ∃ body : List Char, (Quoted.quote s).toList = '\'' :: (body ++ ['\'']) ∧
      Quoted.IsGuarded body ∧ Quoted.backslashes body % 2 = 0 ∧ '\n' ∉ body ∧ '\r' ∉ body ∧
      ∀ rest, Lexer.textFrom '\'' (body ++ '\'' :: rest) = some (s.toList, rest) := by
  have hbreak {d : Char} (hd : d ∈ s.toList.flatMap Quoted.escape) : d ≠ '\n' ∧ d ≠ '\r' := by
    obtain ⟨c, -, hc⟩ := List.mem_flatMap.mp hd
    exact Quoted.not_lineBreak_of_mem_escape hc
  obtain ⟨hguarded, heven⟩ := Quoted.isGuarded_escaped s.toList
  exact ⟨_, Quoted.quote_eq s, hguarded, heven, fun h => (hbreak h).1 rfl,
    fun h => (hbreak h).2 rfl, Lexer.textFrom_escaped s.toList⟩

end JavaScript

end PhpMigration
