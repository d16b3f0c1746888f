/-
Numbers as they are written and read.

An integer is written with its digits, and so is a double that is an integer of limited size; any
other finite double is written as its shortest decimal, with a point or an exponent.  What is written
is read as one token of a number, behind a minus if the number is negative, and the decimal of that
token denotes the number: an integer exactly, and a double because the double nearest to it is that
double (`exists_readsAs`).

Two things are not so.  The infinities and what is no number at all are written as words
(`exists_word`).  And digits alone go on with a point, so behind them no point may
stand; a point or an exponent in the text keeps the next point apart.
-/
import PhpMigration.JavaScript.Printer
import PhpMigration.Proofs.JavaScript.Lexer
import PhpMigration.Proofs.Number.DecimalText

namespace PhpMigration

/-! ### What a number denotes -/

namespace Numeral

/-- The number is an integer or a finite double. -/
def isFinite : Numeral → Bool
  | .double .nan | .double (.infinite _) => false
  | _ => true

/-- A double is canonical. -/
def IsCanonical : Numeral → Prop
  | .double d => d.IsCanonical
  | _ => True

end Numeral

namespace JavaScript

open Lexer

/-- The decimal, with its sign, denotes the number: an integer is its value, and a double is the one
that is nearest to it, where the sign of a zero does not count. -/
def Denotes (negative : Bool) (d : Decimal) (x : Numeral) : Prop :=
  match x.cases with
  | .inl n => (if negative then -d.value else d.value) = n
  | .inr y => (d.nearest negative).value? = y.value? ∧ (y.value? = none → d.nearest negative = y)

/-- The tokens are a number, maybe behind a minus, that denotes the number. -/
inductive IsNumber (x : Numeral) : List Token → Prop where
  | plain {mantissa : Nat} {exponent : Int} (h : Denotes false ⟨mantissa, exponent⟩ x) :
      IsNumber x [Token.number mantissa exponent]
  | minus {mantissa : Nat} {exponent : Int} (h : Denotes true ⟨mantissa, exponent⟩ x) :
      IsNumber x [Token.mark "-", Token.number mantissa exponent]

namespace Alphabet

variable {A : Alphabet}

/-! ### Decimals -/

theorem not_isDigit_of_endsName {c : Char} (h : A.EndsName c) : c.isDigit = false := by
  rw [Bool.eq_false_iff]
  intro hdigit
  rw [EndsName, continues_of_isDigit hdigit] at h
  cases h

/-- The digits of an exponent are read up to their end. -/
theorem exponent_decimal {p : DecimalParts} (hp : p.IsWellFormed) {rest : List Char}
    (hrest : ∀ c, rest.head? = some c → A.EndsName c) :
    exponent (DecimalParts.exponentChars p.exponent ++ rest) =
      some (DecimalParts.exponentValue p.exponent, rest) := by
  cases hexponent : p.exponent with
  | none => exact exponent_of_ends hrest
  | some parts =>
      obtain ⟨negative, digits⟩ := parts
      obtain ⟨hne, hdigits⟩ := hp.exponent negative digits hexponent
      obtain ⟨htake, hdrop⟩ := takeWhile_append_of_ends hdigits fun c hc =>
        not_isDigit_of_endsName (hrest c hc)
      have hmagnitude : magnitude (digits ++ rest) = some (Nat.ofDigitChars 10 digits 0, rest) := by
        unfold magnitude
        rw [htake, hdrop]
        exact if_neg (by simpa using hne)
      cases negative with
      | true =>
          show (magnitude (digits ++ rest)).map _ = _
          rw [hmagnitude]
          rfl
      | false =>
          show (magnitude (digits ++ rest)).map _ = _
          rw [hmagnitude]
          rfl

/-- The digits behind a point are read up to their end. -/
theorem fraction_decimal {p : DecimalParts} (hp : p.IsWellFormed) {rest : List Char}
    (hrest : ∀ c, rest.head? = some c → A.EndsName c) :
    fraction ((if p.fraction.isEmpty then [] else '.' :: p.fraction) ++
        (DecimalParts.exponentChars p.exponent ++ rest)) =
      (p.fraction, DecimalParts.exponentChars p.exponent ++ rest) := by
  by_cases hne : p.fraction = []
  · obtain ⟨parts, hparts⟩ := Option.ne_none_iff_exists'.mp (hp.marked.resolve_left (not_not.mpr hne))
    rw [hne, hparts]
    rfl
  · have hends : ∀ c, (DecimalParts.exponentChars p.exponent ++ rest).head? = some c →
        c.isDigit = false := by
      cases p.exponent with
      | none => exact fun c hc => not_isDigit_of_endsName (hrest c hc)
      | some parts =>
          intro c hc
          cases hc
          rfl
    obtain ⟨htake, hdrop⟩ := takeWhile_append_of_ends hp.fraction hends
    rw [if_neg (by simpa using hne), List.cons_append, fraction, htake, hdrop]

/-- **The text of a decimal is one token**, unless a name goes on with it. -/
theorem next?_decimal {p : DecimalParts} (hp : p.IsWellFormed) {c : Char} {cs rest : List Char}
    (hcs : p.chars = c :: cs) (hrest : ∀ d, rest.head? = some d → A.EndsName d) :
    next? A c (cs ++ rest) = some (.number p.decimal.digits p.decimal.exponent, rest) := by
  obtain ⟨first, digits, hwhole⟩ := List.exists_cons_of_ne_nil hp.whole_ne_nil
  have hc : c.isDigit = true := by
    have hfirst : c = first := by
      rw [DecimalParts.chars, hwhole] at hcs
      exact (List.cons.inj hcs).1.symm
    rw [hfirst]
    exact hp.whole first (by simp [hwhole])
  have hends : ∀ d, ((if p.fraction.isEmpty then [] else '.' :: p.fraction) ++
      (DecimalParts.exponentChars p.exponent ++ rest)).head? = some d → d.isDigit = false := by
    intro d hd
    by_cases hne : p.fraction = []
    · obtain ⟨parts, hparts⟩ :=
        Option.ne_none_iff_exists'.mp (hp.marked.resolve_left (not_not.mpr hne))
      rw [hne, hparts] at hd
      cases hd
      rfl
    · rw [if_neg (by simpa using hne)] at hd
      cases hd
      rfl
  obtain ⟨htake, hdrop⟩ := takeWhile_append_of_ends hp.whole hends
  have htext : c :: (cs ++ rest) = p.whole ++ ((if p.fraction.isEmpty then [] else '.' :: p.fraction) ++
      (DecimalParts.exponentChars p.exponent ++ rest)) := by
    rw [← List.cons_append, ← hcs, DecimalParts.chars, List.append_assoc, List.append_assoc]
  have hfollow : rest.head?.any A.continues = false := by
    rw [Option.any_eq_false]
    exact hrest
  have hzero : ¬(1 < p.whole.length ∧ p.whole.head? = some '0') := fun h => hp.no_needless_zero h.1 h.2
  rw [next?, if_neg (by simp [not_begins_of_isDigit hc]), if_pos (by simp [hc]), htext, number?]
  simp only [htake, hdrop, fraction_decimal hp hrest, exponent_decimal hp hrest, hfollow]
  rw [if_neg (by simpa [hp.whole_ne_nil] using hzero)]
  rfl

theorem lexes_decimal {p : DecimalParts} (hp : p.IsWellFormed) :
    A.Lexes p.chars [Token.number p.decimal.digits p.decimal.exponent] A.EndsName := by
  obtain ⟨c, digits, hwhole⟩ := List.exists_cons_of_ne_nil hp.whole_ne_nil
  obtain ⟨cs, hcs⟩ : ∃ cs, p.chars = c :: cs := ⟨_, by rw [DecimalParts.chars, hwhole]; rfl⟩
  have hc : c.isDigit = true := hp.whole c (by simp [hwhole])
  obtain ⟨hblank, hbreak⟩ := A.not_blank c (continues_of_isDigit hc)
  intro rest hrest
  rw [hcs, List.cons_append, lex_of_next? hblank hbreak (next?_decimal hp hcs hrest)]
  rfl

/-! ### Signs -/

/-- The tokens of a number behind its sign. -/
def signedTokens (negative : Bool) (t : Token) : List Token :=
  if negative then [Token.mark "-", t] else [t]

/-- The text of a number behind its sign. -/
def signedChars (negative : Bool) (cs : List Char) : List Char :=
  if negative then '-' :: cs else cs

theorem signedChars_head {c : Char} {cs : List Char} (negative : Bool) (hc : c.isAlphanum = true) :
    signedChars negative (c :: cs) ≠ [] ∧ (signedChars negative (c :: cs)).head? ≠ some '=' := by
  cases negative with
  | true => simp [signedChars]
  | false =>
      refine ⟨by simp [signedChars], ?_⟩
      intro h
      obtain rfl := Option.some.inj h
      cases hc

theorem lexes_signed {c : Char} {cs : List Char} {t : Token} {next : Char → Prop} (negative : Bool)
    (h : A.Lexes (c :: cs) [t] next) (hc : c.isAlphanum = true) :
    A.Lexes (signedChars negative (c :: cs)) (signedTokens negative t) next := by
  cases negative with
  | false => exact h
  | true =>
      have hminus := A.lexes_mark (m := "-") (by decide)
      refine hminus.append h (by simp) ?_
      intro d hd
      obtain rfl := Option.some.inj hd
      refine ⟨?_, nofun⟩
      rw [(by decide : followers "-" = ['-', '='])]
      intro hmem
      rcases List.mem_cons.mp hmem with rfl | hmem
      · cases hc
      · obtain rfl := List.mem_singleton.mp hmem
        cases hc

end Alphabet

theorem isNumber_signedTokens {x : Numeral} {negative : Bool} {d : Decimal}
    (h : Denotes negative d x) :
    IsNumber x (Alphabet.signedTokens negative (Token.number d.digits d.exponent)) := by
  cases negative with
  | false => exact .plain h
  | true => exact .minus h

/-! ### The text of a number -/

theorem toList_toString_int (n : Int) :
    (toString n).toList = Alphabet.signedChars (decide (n < 0)) (toString n.natAbs).toList := by
  cases n with
  | ofNat k => rfl
  | negSucc k =>
      rw [decide_eq_true (Int.negSucc_lt_zero k)]
      show ("-" ++ toString (k + 1)).toList = '-' :: (toString (k + 1)).toList
      rw [String.toList_append]
      rfl

theorem denotes_int (n : Int) : Denotes (decide (n < 0)) ⟨n.natAbs, 0⟩ (.int n) := by
  have hvalue : Decimal.value ⟨n.natAbs, 0⟩ = n.natAbs := by
    rw [Decimal.value, zpow_zero, mul_one]
  show (if decide (n < 0) then _ else _) = (n : ℚ)
  rw [hvalue, ← Int.cast_natCast]
  by_cases hn : n < 0
  · rw [decide_eq_true hn, if_pos rfl, ← Int.cast_neg]
    congr 1
    omega
  · rw [decide_eq_false hn, if_neg (by decide)]
    congr 1
    omega

/-- An integral double is denoted by the digits of the integer. -/
theorem denotes_of_toInt? {d : Double} (hd : d.IsCanonical) {n : Int} (h : d.toInt? = some n) :
    Denotes (decide (n < 0)) ⟨n.natAbs, 0⟩ (.double d) := by
  cases d with
  | nan => cases h
  | infinite negative => cases h
  | finite negative m e =>
      obtain ⟨hvalue, hsign⟩ := Double.natAbs_of_toInt? h
      refine ⟨?_, nofun⟩
      rcases hd with ⟨rfl, rfl⟩ | hm
      · -- Zero has one value, whatever its sign.
        have hzero : n = 0 := by
          rw [Nat.cast_zero, zero_mul] at hvalue
          exact Int.natAbs_eq_zero.mp (by exact_mod_cast hvalue)
        rw [hzero]
        cases negative <;> rfl
      · have hpos : (0 : ℚ) < n.natAbs := by
          rw [hvalue]
          exact mul_pos (by exact_mod_cast hm.pos) (Double.two_zpow_pos e)
        have hpos : 0 < n.natAbs := by exact_mod_cast hpos
        have hnegative : decide (n < 0) = negative := by
          unfold Double.signed at hsign
          cases negative with
          | true => exact decide_eq_true (by rw [if_pos rfl] at hsign; omega)
          | false => exact decide_eq_false (by rw [if_neg (by decide)] at hsign; omega)
        have hrounds : Double.RoundsTo m e (Decimal.value ⟨n.natAbs, 0⟩) := by
          rw [Decimal.value, zpow_zero, mul_one, hvalue]
          exact .refl e hm.pos
        rw [hnegative, Decimal.nearest_eq hm hrounds]

/-- A double is denoted by its shortest decimal. -/
theorem denotes_of_value {negative : Bool} {m : Nat} {e : Int} {d : Decimal}
    (hm : Double.IsNormal m e) (h : d.value = (Double.shortest m e).value) :
    Denotes negative d (.double (.finite negative m e)) := by
  have hreads := (Double.readsBack_iff m e _).mp (Double.readsBack_shortest hm)
  rw [← h] at hreads
  refine ⟨?_, nofun⟩
  rw [d.nearest_eq hm hreads]

/-! ### What is written for a number -/

/-- The text has digits only. -/
def isDigits (text : String) : Bool := text.toList.all Char.isDigit

/-- What is known of the text of a number: it is read as the number, and if a point would go on with
it, it has digits only or a minus before them. -/
structure ReadsAs (A : Alphabet) (text : String) (x : Numeral) (ts : List Token)
    (next : Char → Prop) : Prop where
  isNumber : IsNumber x ts
  lexes : A.Lexes text.toList ts next
  of_ends : ∀ c, A.EndsOperand c → next c
  point : text.toList.head? = some '-' ∨ isDigits text = true ∨ next '.'
  not_empty : text.toList ≠ []
  not_equals : text.toList.head? ≠ some '='

variable {A : Alphabet}

theorem isAlphanum_of_isDigit {c : Char} (h : c.isDigit = true) : c.isAlphanum = true := by
  rw [Char.isAlphanum, h, Bool.or_true]

theorem readsAs_integer {x : Numeral} {n : Int} (h : Denotes (decide (n < 0)) ⟨n.natAbs, 0⟩ x) :
    ReadsAs A (toString n) x
      (Alphabet.signedTokens (decide (n < 0)) (Token.number n.natAbs 0)) A.EndsOperand := by
  obtain ⟨c, cs, hcs, hc⟩ := Text.toString_head n.natAbs
  have hlex := A.lexes_number n.natAbs
  have hhead := @Alphabet.signedChars_head c cs (decide (n < 0)) (isAlphanum_of_isDigit hc)
  have htext := toList_toString_int n
  rw [hcs] at hlex htext
  refine ⟨isNumber_signedTokens h, ?_, fun _ hc => hc, ?_, ?_, ?_⟩
  · rw [htext]
    exact Alphabet.lexes_signed _ hlex (isAlphanum_of_isDigit hc)
  · rw [isDigits, htext]
    by_cases hn : n < 0
    · rw [decide_eq_true hn]
      exact .inl rfl
    · rw [decide_eq_false hn]
      refine .inr (.inl (List.all_eq_true.mpr ?_))
      intro d hd
      exact Text.isDigit_of_mem_toString (n := n.natAbs) (by rw [hcs]; exact hd)
  · rw [htext]
    exact hhead.1
  · rw [htext]
    exact hhead.2

/-- A double with a fraction, or a large one, is written as its shortest decimal. -/
theorem exists_readsAs_toText (negative : Bool) {m : Nat} {e : Int} (hm : Double.IsNormal m e) :
    ∃ ts, ReadsAs A (Double.finite negative m e).toText (.double (.finite negative m e)) ts
      A.EndsName := by
  obtain ⟨p, hchars, hp, hvalue⟩ := Double.exists_parts (Double.shortest_ne_zero hm)
  obtain ⟨c, whole, hwhole⟩ := List.exists_cons_of_ne_nil hp.whole_ne_nil
  obtain ⟨cs, hcs⟩ : ∃ cs, p.chars = c :: cs := ⟨_, by rw [DecimalParts.chars, hwhole]; rfl⟩
  have hc := isAlphanum_of_isDigit (hp.whole c (by simp [hwhole]))
  have hlex := A.lexes_decimal hp
  have htext : (Double.finite negative m e).toText.toList =
      Alphabet.signedChars negative (c :: cs) := by
    rw [← hcs, hchars, Double.toText, if_neg hm.pos.ne']
    cases negative with
    | true => simp [Alphabet.signedChars, String.toList_append]
    | false => simp [Alphabet.signedChars]
  rw [hcs] at hlex
  have hhead := @Alphabet.signedChars_head c cs negative hc
  refine ⟨_, isNumber_signedTokens (denotes_of_value hm hvalue), ?_, fun c hc => hc.1,
    .inr (.inr (A.continues_of_not_alphanum (by decide) (by decide))), ?_, ?_⟩
  · rw [htext]
    exact Alphabet.lexes_signed negative hlex hc
  · rw [htext]
    exact hhead.1
  · rw [htext]
    exact hhead.2

theorem toInt?_zero (negative : Bool) (e : Int) : (Double.finite negative 0 e).toInt? = some 0 := by
  unfold Double.toInt? Double.ratio
  by_cases he : e < 0 <;> cases negative <;> simp [he, Double.signed]

/-- **What is written for a finite number is read as that number.** -/
theorem exists_readsAs {x : Numeral} (hx : x.IsCanonical) (hfinite : x.isFinite = true) :
    ∃ ts next, ReadsAs A (numberText x) x ts next := by
  cases x with
  | int n => exact ⟨_, _, readsAs_integer (denotes_int n)⟩
  | truth b =>
      cases b with
      | false => exact ⟨_, _, @readsAs_integer A (.truth false) 0 (denotes_int 0)⟩
      | true => exact ⟨_, _, @readsAs_integer A (.truth true) 1 (denotes_int 1)⟩
  | double d =>
      cases d with
      | nan => cases hfinite
      | infinite negative => cases hfinite
      | finite negative m e =>
          have hcanonical : (Double.finite negative m e).IsCanonical := hx
          -- A zero is written as an integer.
          have hnormal : (∀ n, (Double.finite negative m e).toInt? = some n →
              ¬n.natAbs < Nat.pow 10 16) → Double.IsNormal m e := by
            intro hlarge
            rcases hcanonical with ⟨rfl, rfl⟩ | hm
            · exact absurd (by decide : (0 : Int).natAbs < Nat.pow 10 16)
                (hlarge 0 (toInt?_zero negative _))
            · exact hm
          unfold numberText
          dsimp only
          split
          · rename_i n hint
            split
            · exact ⟨_, _, readsAs_integer (denotes_of_toInt? hcanonical hint)⟩
            · rename_i hlarge
              obtain ⟨ts, hreads⟩ := exists_readsAs_toText (A := A) negative
                (hnormal fun n' hn' => by
                  obtain rfl := Option.some.inj (hint.symm.trans hn')
                  exact hlarge)
              exact ⟨ts, _, hreads⟩
          · rename_i hint
            obtain ⟨ts, hreads⟩ := exists_readsAs_toText (A := A) negative
              (hnormal fun n hn => by
                rw [hint] at hn
                cases hn)
            exact ⟨ts, _, hreads⟩

/-- **What is no finite number is written as a word**, maybe with a minus before it. -/
theorem exists_word {x : Numeral} (h : x.isFinite = false) :
    ∃ negative name, Alphabet.isLetters name = true ∧
      (numberText x).toList = Alphabet.signedChars negative name.toList := by
  cases x with
  | int n => cases h
  | truth b => cases h
  | double d =>
      cases d with
      | nan => exact ⟨false, "nan", by decide, rfl⟩
      | infinite negative =>
          cases negative with
          | false => exact ⟨false, "inf", by decide, rfl⟩
          | true => exact ⟨true, "inf", by decide, rfl⟩
      | finite negative m e => cases h

end JavaScript

end PhpMigration
