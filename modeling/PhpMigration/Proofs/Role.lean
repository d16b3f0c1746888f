/-
How a role is recognised.

A signature is found in a text if its pieces stand one behind the other in some part of it that
holds no line break (`shows_iff`).  What stands in a part of a text stands in the text, and a word
in the name of a file stays there when more is written around it; none of this asks for anything to
be missing.  So a role that recognises a file still does when something is added
(`recognises_mono`), and an earlier one may come to recognise it too.

Byte order marks before a text are in no signature, so they make no difference
(`classify_withoutMarks`).
-/
import PhpMigration.Conversion.Basic
import PhpMigration.Role
import PhpMigration.Proofs.Text.Case
import PhpMigration.Proofs.Text.Pieces

namespace PhpMigration.Role

/-! ### Pieces in order -/

/-- The pieces stand one behind the other in the text. -/
def Stands : List (List Char) → List Char → Prop
  | [], _ => True
  | piece :: more, cs => ∃ before after, cs = before ++ piece ++ after ∧ Stands more after

variable {pieces : List (List Char)} {cs cs' : List Char}

theorem Stands.mono (h : Stands pieces cs) (hcs : cs <:+: cs') : Stands pieces cs' := by
  induction pieces generalizing cs cs' with
  | nil => trivial
  | cons piece more ih =>
      obtain ⟨left, right, rfl⟩ := hcs
      obtain ⟨before, after, rfl, hafter⟩ := h
      exact ⟨left ++ before, after ++ right, by simp only [List.append_assoc],
        ih hafter (List.prefix_append after right).isInfix⟩

/-- To look for each piece behind the first place of the one before is to miss nothing. -/
theorem inOrder_iff : inOrder pieces cs = true ↔ Stands pieces cs := by
  induction pieces generalizing cs with
  | nil => exact iff_of_true rfl trivial
  | cons piece more ih =>
      rw [inOrder]
      cases hfound : Text.findFrom? piece cs with
      | none =>
          refine iff_of_false Bool.false_ne_true ?_
          rintro ⟨before, after, rfl, -⟩
          exact Text.findFrom?_eq_none_iff.mp hfound ⟨before, after, rfl⟩
      | some found =>
          obtain ⟨⟨rest, rfl⟩, hsuffix, hlongest⟩ := Text.findFrom?_eq_some_iff.mp hfound
          simp only [List.drop_left, ih]
          constructor
          · intro hrest
            obtain ⟨before, rfl⟩ := hsuffix
            exact ⟨before, rest, by rw [List.append_assoc], hrest⟩
          · rintro ⟨before, after, rfl, hafter⟩
            -- the first place leaves the most, so what is behind another place is behind it too
            have hother : piece ++ after <:+ before ++ piece ++ after :=
              ⟨before, by rw [List.append_assoc]⟩
            have hle := hlongest _ (List.prefix_append piece after) hother
            have hends := List.suffix_of_suffix_length_le hother hsuffix hle
            have hafter' : after <:+ piece ++ rest := (List.suffix_append piece after).trans hends
            rw [List.length_append, List.length_append] at hle
            exact hafter.mono (List.suffix_of_suffix_length_le hafter'
              (List.suffix_append piece rest) (by omega)).isInfix

/-- **A signature is found where its pieces stand one behind the other without a line break.** -/
theorem shows_iff {text : String} {signature : Signature} : shows text signature = true ↔
    ∃ part, part <:+: text.toList ∧ '\n' ∉ part ∧ Stands (signature.map String.toList) part := by
  simp only [shows, List.any_eq_true, inOrder_iff]
  constructor
  · rintro ⟨line, hline, hstands⟩
    exact ⟨line, Text.infix_of_mem_splitAt hline, (Text.splitAt_piece hline).1, hstands⟩
  · rintro ⟨part, hpart, hbreak, hstands⟩
    obtain ⟨line, hline, hin⟩ := Text.exists_piece_of_part hpart hbreak
    exact ⟨line, hline, hstands.mono hin⟩

/-! ### More of a file -/

variable {content left right before after : String} {role : Role}

theorem shows_append {signature : Signature} (h : shows content signature = true) :
    shows (before ++ content ++ after) signature = true := by
  obtain ⟨part, hpart, hbreak, hstands⟩ := shows_iff.mp h
  refine shows_iff.mpr ⟨part, hpart.trans ?_, hbreak, hstands⟩
  exact ⟨before.toList, after.toList, by rw [String.toList_append, String.toList_append]⟩

/-- The word for a role holds no sigma. -/
theorem sigma_not_mem_name (role : Role) :
    Text.sigma ∉ role.name.toList ∧ Text.finalSigma ∉ role.name.toList := by
  cases role <;> decide

/-- **A role that recognises a file recognises it when something is added to its text or name.** -/
theorem recognises_mono {stem : String} (h : recognises content stem role = true) :
    recognises (before ++ content ++ after) (left ++ stem ++ right) role = true := by
  simp only [recognises, Bool.or_eq_true, List.any_eq_true, Text.contains_iff] at h ⊢
  refine h.imp (fun hname => ?_) fun ⟨signature, hsignature, hshows⟩ => ?_
  · exact Text.infix_lower_append (sigma_not_mem_name role).1 (sigma_not_mem_name role).2 hname
  · exact ⟨signature, hsignature, shows_append hshows⟩

section

variable {α : Type} {xs : List α} {last : α}

theorem find?_getD_mem (p : α → Bool) (xs : List α) (last : α) :
    (xs.find? p).getD last ∈ xs ++ [last] := by
  cases hfind : xs.find? p with
  | none => exact List.mem_append_right _ List.mem_cons_self
  | some x => exact List.mem_append_left _ (List.mem_of_find?_eq_some hfind)

/-- Where more of them count, the first that counts comes no later; what is taken where none counts
comes last. -/
theorem idxOf_find?_le [DecidableEq α] {few many : α → Bool}
    (h : ∀ x, few x = true → many x = true) (hnodup : (xs ++ [last]).Nodup) :
    (xs ++ [last]).idxOf ((xs.find? many).getD last) ≤
      (xs ++ [last]).idxOf ((xs.find? few).getD last) := by
  induction xs with
  | nil => exact Nat.le_refl _
  | cons x rest ih =>
      rw [List.cons_append, List.nodup_cons] at hnodup
      cases hmany : many x with
      | true => simp [List.find?_cons, hmany]
      | false =>
          have hfew : few x = false := Bool.eq_false_iff.mpr fun hfew => by simp [h x hfew] at hmany
          -- neither takes the first, which is not among the others
          have hne : ∀ p : α → Bool, x ≠ (rest.find? p).getD last := fun p heq =>
            hnodup.1 (heq ▸ find?_getD_mem p rest last)
          have hlater : ∀ p : α → Bool, (x :: (rest ++ [last])).idxOf ((rest.find? p).getD last) =
              (rest ++ [last]).idxOf ((rest.find? p).getD last) + 1 := by
            intro p
            rw [List.idxOf_cons, beq_eq_false_iff_ne.mpr (hne p)]
            rfl
          rw [List.find?_cons_of_neg (Bool.eq_false_iff.mp hmany),
            List.find?_cons_of_neg (Bool.eq_false_iff.mp hfew), List.cons_append, hlater, hlater]
          exact Nat.succ_le_succ (ih hnodup.2)

end

theorem classify_mem_priority (content fileName : String) : classify content fileName ∈ priority :=
  find?_getD_mem _ recognised .util

/-- **Whatever is added to the text of a file or to the stem of its name, the file is given one of
the roles in the order of priority, and never a later one than before.** -/
theorem classify_le_of_more (before content after : String) (fileName newName : String)
    (hstem : (Path.stem fileName).toList <:+: (Path.stem newName).toList) :
    classify content fileName ∈ priority ∧
      classify (before ++ content ++ after) newName ∈ priority ∧
      priority.idxOf (classify (before ++ content ++ after) newName) ≤
        priority.idxOf (classify content fileName) := by
  refine ⟨classify_mem_priority _ _, classify_mem_priority _ _, ?_⟩
  obtain ⟨left, right, hnew⟩ := hstem
  have hname : Path.stem newName = String.ofList left ++ Path.stem fileName ++ String.ofList right := by
    refine String.toList_inj.mp ?_
    rw [← hnew, String.toList_append, String.toList_append, String.toList_ofList, String.toList_ofList]
  refine idxOf_find?_le (fun role h => ?_) (by decide : priority.Nodup)
  rw [hname]
  exact recognises_mono h

/-- A file of routes becomes a controller when its name says so, though a model is written behind
it. -/
theorem classify_le_userRoutes :
    (Path.stem "routes/user.php").toList <:+: (Path.stem "app/userController.php").toList ∧
      classify "Route::x" "routes/user.php" = .route ∧
      classify ("<?php " ++ "Route::x" ++ "\nclass A extends Model") "app/userController.php" =
        .controller ∧
      priority.idxOf (classify ("<?php " ++ "Route::x" ++ "\nclass A extends Model")
        "app/userController.php") ≤ priority.idxOf (classify "Route::x" "routes/user.php") := by
  have hstem : (Path.stem "routes/user.php").toList <:+:
      (Path.stem "app/userController.php").toList := by decide
  exact ⟨hstem, by decide, by decide, (classify_le_of_more "<?php " "Route::x"
    "\nclass A extends Model" "routes/user.php" "app/userController.php" hstem).2.2⟩

/-! ### Byte order marks -/

/-- A character with which the first piece does not begin is not needed. -/
theorem Stands.of_cons {c : Char} (h : Stands pieces (c :: cs))
    (hc : ∀ piece ∈ pieces.head?, piece ≠ [] ∧ piece.head? ≠ some c) : Stands pieces cs := by
  cases pieces with
  | nil => trivial
  | cons piece more =>
      obtain ⟨before, after, hcs, hafter⟩ := h
      cases before with
      | nil =>
          obtain ⟨hne, hhead⟩ := hc piece rfl
          obtain ⟨d, rest, rfl⟩ := List.exists_cons_of_ne_nil hne
          exact absurd (congrArg some (List.cons.inj hcs).1.symm) hhead
      | cons b before =>
          obtain ⟨rfl, rfl⟩ := List.cons.inj hcs
          exact ⟨before, after, rfl, hafter⟩

/-- No signature begins with a byte order mark. -/
theorem signatures_begin (role : Role) : ∀ signature ∈ role.signatures,
    ∀ piece ∈ (signature.map String.toList).head?,
      piece ≠ [] ∧ piece.head? ≠ some byteOrderMark := by
  cases role <;> decide

theorem shows_withoutMarks {signature : Signature} (h : signature ∈ role.signatures)
    (text : String) : shows (withoutMarks text) signature = shows text signature := by
  rw [Bool.eq_iff_iff, shows_iff, shows_iff, withoutMarks, String.toList_ofList]
  have hbegin := signatures_begin role signature h
  generalize signature.map String.toList = pieces at hbegin
  generalize text.toList = cs
  constructor
  · rintro ⟨part, hpart, hmore⟩
    exact ⟨part, hpart.trans (List.dropWhile_suffix _).isInfix, hmore⟩
  · rintro ⟨part, hpart, hbreak, hstands⟩
    -- the marks are left out of the part one by one
    induction cs generalizing part with
    | nil => exact ⟨part, hpart, hbreak, hstands⟩
    | cons c rest ih =>
        rw [List.dropWhile_cons]
        by_cases hc : c = byteOrderMark
        · rw [if_pos (decide_eq_true hc)]
          rcases List.infix_cons_iff.mp hpart with hfirst | hlater
          · cases part with
            | nil => exact ⟨[], List.nil_infix, hbreak, hstands⟩
            | cons d more =>
                obtain ⟨rfl, hmore⟩ := List.cons_prefix_cons.mp hfirst
                exact ih more hmore.isInfix (fun hmem => hbreak (List.mem_cons_of_mem _ hmem))
                  (hstands.of_cons (hc ▸ hbegin))
          · exact ih part hlater hbreak hstands
        · rw [if_neg (mt of_decide_eq_true hc)]
          exact ⟨part, hpart, hbreak, hstands⟩

/-- **Marks before the text of a file make no difference to its role.** -/
theorem classify_withoutMarks (text fileName : String) :
    classify (withoutMarks text) fileName = classify text fileName := by
  have hsame : recognises (withoutMarks text) (Path.stem fileName) =
      recognises text (Path.stem fileName) := by
    funext role
    have hany : role.signatures.any (shows (withoutMarks text)) = role.signatures.any (shows text) := by
      rw [Bool.eq_iff_iff, List.any_eq_true, List.any_eq_true]
      exact exists_congr fun signature => and_congr_right fun h => by rw [shows_withoutMarks h]
    rw [recognises, recognises, hany]
  rw [classify, hsame, classify]

end PhpMigration.Role
