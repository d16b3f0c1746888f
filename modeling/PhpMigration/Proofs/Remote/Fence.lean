/-
Code between fences.

A fence is complete where an opening is followed, anywhere behind it, by a closing.  Two things are
settled by where the backticks stand.

What has been taken for code holds no complete fence (`not_hasFence_extractChars`): it stops before the
first closing, so it holds none, and if no fence was found at all there is none in any piece of the
reply.  So nothing is left for another look.

And code is found between its fences whatever the prose around it is (`fenced?_between`), as long as
neither the prose nor the code has three backticks in a row.  Backticks of the prose may touch the
fence and words for languages may follow it, so it takes an argument that no other three backticks
open a fence: the prose before can lend one or two backticks to a run of three, but then a backtick
stands where the word for the language should begin; and behind the closing fence there is nothing
that could close another one.
-/
import PhpMigration.Remote.Fence
import PhpMigration.Proofs.Text.Blank
import PhpMigration.Proofs.Text.Search

namespace PhpMigration.Fence

/-! ### Complete fences -/

/-- An opening fence with a tag stands in the text, and a closing one somewhere behind it. -/
def HasFenceOf (tag : String) (cs : List Char) : Prop :=
  ∃ before code behind, cs = before ++ opening tag ++ code ++ closing ++ behind

/-- A complete fence with a tag that is recognised stands in the text. -/
def HasFence (cs : List Char) : Prop := ∃ tag ∈ tags, HasFenceOf tag cs

variable {tag : String} {cs piece code : List Char}

theorem HasFenceOf.of_isInfix (h : HasFenceOf tag piece) (hpiece : piece <:+: cs) :
    HasFenceOf tag cs := by
  obtain ⟨before, code, behind, rfl⟩ := h
  obtain ⟨left, right, rfl⟩ := hpiece
  exact ⟨left ++ before, code, behind ++ right, by simp⟩

theorem HasFence.of_isInfix (h : HasFence piece) (hpiece : piece <:+: cs) : HasFence cs := by
  obtain ⟨tag, htag, h⟩ := h
  exact ⟨tag, htag, h.of_isInfix hpiece⟩

theorem HasFence.closing_within (h : HasFence cs) : closing <:+: cs := by
  obtain ⟨tag, -, before, code, behind, rfl⟩ := h
  exact ⟨before ++ opening tag ++ code, behind, rfl⟩

/-! ### Up to the closing fence -/

/-- The text up to the closing fence is what the first one leaves before it. -/
theorem untilClosing?_eq (cs : List Char) : untilClosing? cs =
    (Text.findFrom? closing cs).map fun found => cs.take (cs.length - found.length) := by
  induction cs with
  | nil => rfl
  | cons c rest ih =>
      rw [untilClosing?, Text.findFrom?]
      split
      · simp
      · rw [ih, Option.map_map]
        refine Option.map_congr fun found hfound => ?_
        have hle := (Text.findFrom?_eq_some_iff.mp hfound).2.1.length_le
        rw [Function.comp_apply, List.length_cons, Nat.succ_sub hle, List.take_succ_cons]

theorem untilClosing?_eq_none_iff : untilClosing? cs = none ↔ ¬closing <:+: cs := by
  rw [untilClosing?_eq, Option.map_eq_none_iff, Text.findFrom?_eq_none_iff]

/-- **What stands before the first closing fence holds no closing fence.** -/
theorem not_closing_within (h : untilClosing? cs = some code) : ¬closing <:+: code := by
  rw [untilClosing?_eq] at h
  obtain ⟨found, hfound, rfl⟩ := Option.map_eq_some_iff.mp h
  obtain ⟨-, hsuffix, hlongest⟩ := Text.findFrom?_eq_some_iff.mp hfound
  rintro ⟨left, right, hcode⟩
  -- A closing fence in that part would be an earlier one.
  have hsplit : cs = left ++ closing ++ (right ++ cs.drop (cs.length - found.length)) := by
    rw [← List.append_assoc, hcode, List.take_append_drop]
  have hle := hlongest (closing ++ (right ++ cs.drop (cs.length - found.length)))
    (List.prefix_append _ _) ⟨left, by rw [← List.append_assoc]; exact hsplit.symm⟩
  have hfits := hsuffix.length_le
  simp only [List.length_append, List.length_drop] at hle
  have hclosing : closing.length = 4 := rfl
  omega

theorem untilClosing?_append {behind : List Char}
    (h : ∀ left right, code ++ closing ++ behind = left ++ closing ++ right →
      code.length ≤ left.length) : untilClosing? (code ++ closing ++ behind) = some code := by
  rw [untilClosing?_eq, Text.findFrom?_append h, Option.map_some]
  congr 1
  simp

/-! ### What is taken for code -/

/-- A fence is found if and only if there is one. -/
theorem fenced?_eq_none_iff : fenced? cs tag = none ↔ ¬HasFenceOf tag cs := by
  constructor
  · rintro hnone ⟨before, code, behind, rfl⟩
    have hinfix : opening tag <:+: before ++ opening tag ++ code ++ closing ++ behind :=
      ⟨before, code ++ closing ++ behind, by simp⟩
    obtain ⟨found, hfound⟩ := Option.ne_none_iff_exists'.mp
      (mt Text.findFrom?_eq_none_iff.mp (not_not.mpr hinfix))
    obtain ⟨⟨rest, rfl⟩, hsuffix, hlongest⟩ := Text.findFrom?_eq_some_iff.mp hfound
    -- The first opening is no later than this one, so the closing is behind it as well.
    have hsame : opening tag ++ (code ++ closing ++ behind) <:+
        before ++ opening tag ++ code ++ closing ++ behind := ⟨before, by simp⟩
    have hle := hlongest _ (List.prefix_append _ _) hsame
    have hrest : code ++ closing ++ behind <:+ rest := by
      refine List.suffix_of_suffix_length_le ((List.suffix_append _ _).trans hsame)
        ((List.suffix_append _ _).trans hsuffix) ?_
      simp only [List.length_append] at hle ⊢
      omega
    rw [fenced?, hfound, Option.bind_some, List.drop_left, untilClosing?_eq_none_iff] at hnone
    exact hnone (List.IsInfix.trans ⟨code, behind, rfl⟩ hrest.isInfix)
  · intro hnot
    rw [fenced?, Option.bind_eq_none_iff]
    intro found hfound
    obtain ⟨⟨rest, rfl⟩, ⟨before, rfl⟩, -⟩ := Text.findFrom?_eq_some_iff.mp hfound
    rw [List.drop_left, untilClosing?_eq_none_iff]
    rintro ⟨code, behind, rfl⟩
    exact hnot ⟨before, code, behind, by simp⟩

/-- **What is taken for code holds no complete fence.** -/
theorem not_hasFence_extractChars (reply : List Char) : ¬HasFence (extractChars reply) := by
  unfold extractChars
  cases hfound : tags.findSome? (fenced? reply) with
  | none =>
      rintro h
      obtain ⟨tag, htag, h⟩ := h.of_isInfix (Text.trim_isInfix reply)
      exact fenced?_eq_none_iff.mp (List.findSome?_eq_none_iff.mp hfound tag htag) h
  | some code =>
      obtain ⟨tag, -, hcode⟩ := List.exists_of_findSome?_eq_some hfound
      obtain ⟨found, -, hcode⟩ := Option.bind_eq_some_iff.mp hcode
      intro h
      exact not_closing_within hcode (h.of_isInfix (Text.trim_isInfix code)).closing_within

/-- Without a complete fence the whole text is taken for code. -/
theorem extractChars_of_not_hasFence (h : ¬HasFence cs) : extractChars cs = Text.trim cs := by
  have hnone : tags.findSome? (fenced? cs) = none :=
    List.findSome?_eq_none_iff.mpr fun tag htag =>
      fenced?_eq_none_iff.mpr fun hfence => h ⟨tag, htag, hfence⟩
  rw [extractChars, hnone, Option.getD_none]

/-- **Taking out the code is a projection**: no fence is left in it that another look would strip, and
another look leaves it as it is. -/
theorem extract_extract (reply : String) :
    ¬HasFence (extract reply).toList ∧ extract (extract reply) = extract reply := by
  have hchars : (extract reply).toList = extractChars reply.toList := String.toList_ofList
  have hnot := not_hasFence_extractChars reply.toList
  refine ⟨hchars ▸ hnot, ?_⟩
  rw [extract, hchars, extractChars_of_not_hasFence hnot]
  show String.ofList (Text.trim (Text.trim _)) = String.ofList (Text.trim _)
  rw [Text.trim_trim]

/-! ### Three backticks -/

/-- Three backticks, as they stand in every fence. -/
def ticks : List Char := ['`', '`', '`']

/-- Three backticks in a row stand in the text. -/
def HasTicks (cs : List Char) : Prop := ticks <:+: cs

instance (cs : List Char) : Decidable (HasTicks cs) :=
  decidable_of_iff (Text.findFrom? ticks cs ≠ none)
    ((not_congr Text.findFrom?_eq_none_iff).trans not_not)

variable {before behind front : List Char}

/-- Two runs of three backticks that begin with one text and with another one, of which the second is
followed by something else, begin at the same place or one behind the other. -/
theorem ticks_cases {e : Char} {rest more : List Char} (hbefore : ¬HasTicks before) (he : e ≠ '`')
    (h : before ++ (ticks ++ rest) = front ++ (ticks ++ e :: more)) :
    ∃ between, front = before ++ between ∧ ticks ++ rest = between ++ (ticks ++ e :: more) := by
  rcases List.append_eq_append_iff.mp h with ⟨between, hfront, hrest⟩ | ⟨lent, rfl, hlent⟩
  · exact ⟨between, hfront, hrest⟩
  -- The text before lends backticks to the other run: one or two of them put a backtick behind the
  -- run, and three stand in the text.
  rcases lent with _ | ⟨x, _ | ⟨y, _ | ⟨z, lent⟩⟩⟩
  · exact ⟨[], by simp, hlent.symm⟩
  · simp [ticks] at hlent
    exact absurd hlent.2.1 he
  · simp [ticks] at hlent
    exact absurd hlent.2.2.1 he
  · obtain ⟨rfl, rfl, rfl, -⟩ : '`' = x ∧ '`' = y ∧ '`' = z ∧ _ := by simpa [ticks] using hlent
    exact absurd ⟨front, lent, by simp [ticks]⟩ hbefore

/-- A run of three backticks that something else follows is met at once, or behind that. -/
theorem ticks_cases_head {d e : Char} {rest more : List Char} (hd : d ≠ '`')
    (h : ticks ++ d :: rest = front ++ (ticks ++ e :: more)) :
    front = [] ∧ d :: rest = e :: more ∨ ∃ between, front = ticks ++ d :: between := by
  rcases front with _ | ⟨x, _ | ⟨y, _ | ⟨z, front⟩⟩⟩
  · exact .inl ⟨rfl, List.append_cancel_left h⟩
  · simp [ticks] at h
    exact absurd h.2.1 hd
  · simp [ticks] at h
    exact absurd h.2.2.1 hd
  · obtain ⟨rfl, rfl, rfl, hlast⟩ :
        '`' = x ∧ '`' = y ∧ '`' = z ∧ d :: rest = front ++ (ticks ++ e :: more) := by
      simpa [ticks] using h
    rcases front with _ | ⟨x, front⟩
    · exact absurd (List.cons.inj hlast).1 hd
    · obtain ⟨rfl, -⟩ := List.cons.inj hlast
      exact .inr ⟨front, rfl⟩

/-- Three backticks do not reach over another character. -/
theorem HasTicks.of_append_cons {c : Char} (hc : c ≠ '`') (h : HasTicks (before ++ c :: behind)) :
    HasTicks before ∨ HasTicks behind := by
  obtain ⟨left, right, h⟩ := h
  have hnot : c ∉ ticks := fun hmem => hc (List.eq_of_mem_replicate (n := 3) hmem)
  rcases List.append_eq_append_iff.mp h with ⟨beyond, rfl, -⟩ | ⟨beyond, hbeyond, hbehind⟩
  · exact .inl ⟨left, beyond, rfl⟩
  rcases beyond with _ | ⟨d, beyond⟩
  · exact .inl ⟨left, [], by simpa using hbeyond⟩
  obtain ⟨rfl, rfl⟩ := List.cons.inj hbehind
  rcases List.append_eq_append_iff.mp hbeyond with ⟨part, -, hticks⟩ | ⟨part, -, hticks⟩
  · exact absurd (by rw [hticks]; simp) hnot
  rcases part with _ | ⟨d, part⟩
  · exact absurd (List.cons.inj hticks).1 hc
  · obtain ⟨-, rfl⟩ := List.cons.inj hticks
    exact .inr ⟨part, right, rfl⟩

/-! ### Code between its fences -/

/-- A tag has neither backticks nor line feeds. -/
theorem plain_of_mem_tags : ∀ tag ∈ tags, ∀ c ∈ tag.toList, c ≠ '`' ∧ c ≠ '\n' := by
  have hall : tags.all (fun tag => tag.toList.all fun c => c != '`' && c != '\n') = true := by
    decide
  intro tag htag c hc
  have hplain := List.all_eq_true.mp (List.all_eq_true.mp hall tag htag) c hc
  simpa using hplain

theorem exists_head_tag {tag : String} (htag : tag ∈ tags) :
    ∃ d cs, tag.toList ++ ['\n'] = d :: cs ∧ d ≠ '`' := by
  cases hchars : tag.toList with
  | nil => exact ⟨'\n', [], rfl, by decide⟩
  | cons d cs =>
      exact ⟨d, cs ++ ['\n'], rfl, (plain_of_mem_tags tag htag d (by simp [hchars])).1⟩

/-- A line feed ends the tag, so it can be told from what follows. -/
theorem tag_unique {tag other : String} (htag : tag ∈ tags) (hother : other ∈ tags)
    {rest more : List Char} (h : tag.toList ++ '\n' :: rest = other.toList ++ '\n' :: more) :
    other = tag := by
  have htake : ∀ {tag : String}, tag ∈ tags → ∀ rest,
      (tag.toList ++ '\n' :: rest).takeWhile (· ≠ '\n') = tag.toList := by
    intro tag htag rest
    rw [List.takeWhile_append_of_pos fun c hc => by simpa using (plain_of_mem_tags tag htag c hc).2]
    simp
  have hsame := htake htag rest
  rw [h, htake hother more] at hsame
  exact String.toList_inj.mp hsame

/-- **An opening that stands in the reply is the one before the code**, or nothing but prose follows
it. -/
theorem opening_cases {tag other : String} {more : List Char} (htag : tag ∈ tags)
    (hother : other ∈ tags) (hbefore : ¬HasTicks before) (hcode : ¬HasTicks code)
    (h : before ++ opening tag ++ code ++ closing ++ behind = front ++ opening other ++ more) :
    front = before ∧ other = tag ∨ before.length ≤ front.length ∧ more <:+ behind := by
  obtain ⟨d, cs, hd, hdne⟩ := exists_head_tag htag
  obtain ⟨e, es, he, hene⟩ := exists_head_tag hother
  have hopening : ∀ tag, opening tag = ticks ++ (tag.toList ++ ['\n']) :=
    fun tag => List.append_assoc ..
  have hreply : before ++ (ticks ++ d :: (cs ++ code ++ '\n' :: (ticks ++ behind))) =
      front ++ (ticks ++ e :: (es ++ more)) := by
    simpa [hopening, hd, he, closing, ticks] using h
  obtain ⟨between, rfl, hrest⟩ := ticks_cases hbefore hene hreply
  have hle : before.length ≤ (before ++ between).length := by simp
  rcases ticks_cases_head hdne hrest with ⟨rfl, hsame⟩ | ⟨inside, rfl⟩
  · have htags : tag.toList ++ '\n' :: (code ++ '\n' :: (ticks ++ behind)) =
        other.toList ++ '\n' :: more := by
      rw [List.append_cons, hd, List.append_cons other.toList, he]
      simpa using hsame
    exact .inl ⟨by simp, tag_unique htag hother htags⟩
  · -- The opening stands behind the tag, where the only backticks are those of the closing fence.
    refine .inr ⟨hle, ?_⟩
    have hplain : ¬HasTicks (tag.toList ++ '\n' :: (code ++ ['\n'])) := by
      have htick : ¬HasTicks tag.toList := fun hticks =>
        (plain_of_mem_tags tag htag '`' (hticks.subset (by decide))).1 rfl
      intro hticks
      rcases hticks.of_append_cons (by decide) with hticks | hticks
      · exact htick hticks
      · rcases HasTicks.of_append_cons (by decide) hticks with hticks | hticks
        · exact hcode hticks
        · exact absurd hticks.length_le (by decide)
    have hinside : tag.toList ++ '\n' :: (code ++ ['\n']) ++ (ticks ++ behind) =
        d :: inside ++ (ticks ++ e :: (es ++ more)) := by
      have hbehind : d :: (cs ++ code ++ '\n' :: (ticks ++ behind)) =
          d :: inside ++ (ticks ++ e :: (es ++ more)) :=
        by simpa using hrest
      rw [List.append_cons, hd]
      simpa using hbehind
    obtain ⟨last, -, hlast⟩ := ticks_cases hplain hene hinside
    have hsuffix : more <:+ ticks ++ behind := by
      rw [hlast]
      exact ⟨last ++ ticks ++ e :: es, by simp⟩
    refine List.suffix_of_suffix_length_le hsuffix (List.suffix_append _ _) ?_
    have hlength := congrArg List.length hlast
    simp only [List.length_append, List.length_cons] at hlength
    omega

/-- The code goes up to the closing fence. -/
theorem untilClosing?_code (hcode : ¬HasTicks code) (behind : List Char) :
    untilClosing? (code ++ closing ++ behind) = some code := by
  refine untilClosing?_append fun left right h => ?_
  by_contra hlt
  rw [List.append_assoc, List.append_assoc] at h
  rcases List.append_eq_append_iff.mp h with ⟨beyond, rfl, -⟩ | ⟨beyond, rfl, hbeyond⟩
  · simp at hlt
  -- A closing fence that begins in the code would end in it, or reach over the line feed behind it.
  rcases beyond with _ | ⟨c, beyond⟩
  · simp at hlt
  obtain ⟨rfl, hbeyond⟩ := List.cons.inj hbeyond
  rcases beyond with _ | ⟨x, _ | ⟨y, _ | ⟨z, beyond⟩⟩⟩
  · simp [closing] at hbeyond
  · simp [closing] at hbeyond
  · simp [closing] at hbeyond
  · obtain ⟨rfl, rfl, rfl, -⟩ : '`' = x ∧ '`' = y ∧ '`' = z ∧ _ := by simpa [closing] using hbeyond
    exact hcode ⟨left ++ ['\n'], beyond, by simp [ticks]⟩

/-- **Code is found between its fences**, and no other tag finds any. -/
theorem fenced?_between {tag other : String} (htag : tag ∈ tags) (hother : other ∈ tags)
    (hbefore : ¬HasTicks before) (hcode : ¬HasTicks code) (hbehind : ¬HasTicks behind) :
    fenced? (before ++ opening tag ++ code ++ closing ++ behind) other =
      if other = tag then some code else none := by
  by_cases hsame : other = tag
  · subst hsame
    have hreply : before ++ opening other ++ code ++ closing ++ behind =
        before ++ opening other ++ (code ++ closing ++ behind) := by simp
    have hfind : Text.findFrom? (opening other) (before ++ opening other ++ (code ++ closing ++ behind))
        = some (opening other ++ (code ++ closing ++ behind)) :=
      Text.findFrom?_append fun left right h =>
        (opening_cases htag hother hbefore hcode (hreply.trans h)).elim
          (fun hleft => hleft.1 ▸ Nat.le_refl _) (fun hleft => hleft.1)
    rw [if_pos rfl, hreply, fenced?, hfind, Option.bind_some, List.drop_left,
      untilClosing?_code hcode]
  · rw [if_neg hsame, fenced?_eq_none_iff]
    rintro ⟨left, inner, right, h⟩
    have hfront : before ++ opening tag ++ code ++ closing ++ behind =
        left ++ opening other ++ (inner ++ closing ++ right) := by simpa using h
    rcases opening_cases htag hother hbefore hcode hfront with ⟨-, heq⟩ | ⟨-, hprose⟩
    · exact hsame heq
    · exact hbehind (List.IsInfix.trans ⟨inner ++ ['\n'], right, by simp [closing, ticks]⟩
        hprose.isInfix)

/-- **The code of a fenced reply is the code between its fences**, whatever the tag is, and without
the blanks around it. -/
theorem extract_between {tag : String} (htag : tag ∈ tags) {before code behind : String}
    (hbefore : ¬HasTicks before.toList) (hcode : ¬HasTicks code.toList)
    (hbehind : ¬HasTicks behind.toList) :
    extract (before ++ "```" ++ tag ++ "\n" ++ code ++ "\n```" ++ behind) = Text.strip code := by
  have hreply : (before ++ "```" ++ tag ++ "\n" ++ code ++ "\n```" ++ behind).toList =
      before.toList ++ opening tag ++ code.toList ++ closing ++ behind.toList := by
    simp [opening, closing]
  have hfind : tags.findSome? (fenced? (before ++ "```" ++ tag ++ "\n" ++ code ++ "\n```" ++ behind).toList)
      = some code.toList := by
    obtain ⟨left, right, hsplit⟩ := List.append_of_mem htag
    have hnodup : tags.Nodup := by decide
    rw [hsplit, List.nodup_append] at hnodup
    refine List.findSome?_eq_some_iff.mpr ⟨left, tag, right, hsplit, ?_, fun other hother => ?_⟩
    · rw [hreply, fenced?_between htag htag hbefore hcode hbehind, if_pos rfl]
    · have hne : other ≠ tag := hnodup.2.2 other hother tag List.mem_cons_self
      have hmem : other ∈ tags := by
        rw [hsplit]
        exact List.mem_append_left _ hother
      rw [hreply, fenced?_between htag hmem hbefore hcode hbehind, if_neg hne]
  rw [extract, extractChars, hfind, Option.getD_some]
  rfl

/-- Backticks that touch the fence, backticks and empty lines in the code, and a word for another
language behind the fence. -/
theorem extract_between_touching :
    "js" ∈ tags ∧ ¬HasTicks "Use ``".toList ∧ ¬HasTicks "\n a = `b`;\n\nc``".toList ∧
      ¬HasTicks "typescript\n``".toList ∧
      extract ("Use ``" ++ "```" ++ "js" ++ "\n" ++ "\n a = `b`;\n\nc``" ++ "\n```" ++ "typescript\n``") =
        Text.strip "\n a = `b`;\n\nc``" :=
  ⟨by decide, by decide, by decide, by decide,
    extract_between (by decide) (by decide) (by decide) (by decide)⟩

end PhpMigration.Fence
