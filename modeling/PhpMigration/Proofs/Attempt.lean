/-
Computations that may fail: what it says that one has succeeded, and when one does.

It has succeeded at every step; where members of a list are picked, at every member.

Where a test decides whether a computation succeeds (`Settles`), the tests of its steps are put
together as the steps are: one step after another succeeds if both tests hold.
-/
import Mathlib.Data.List.Forall2
import Mathlib.Data.List.ReduceOption

namespace PhpMigration

/-! ### Computations that a test decides -/

/-- A computation that may fail yields a good value if the test holds, and fails in one of some ways
otherwise. -/
def Settles {ε α : Type} (test : Bool) (good : α → Prop) (bad : ε → Prop) : Except ε α → Prop
  | .ok a => test = true ∧ good a
  | .error e => test = false ∧ bad e

namespace Settles

variable {ε α β : Type} {b c : Bool} {good : α → Prop} {good' : β → Prop} {bad : ε → Prop}
  {r : Except ε α}

theorem bind {f : α → Except ε β} (h : Settles b good bad r)
    (k : ∀ a, good a → Settles c good' bad (f a)) : Settles (b && c) good' bad (r >>= f) := by
  cases r with
  | error e =>
      obtain ⟨rfl, he⟩ := h
      exact ⟨Bool.false_and c, he⟩
  | ok a =>
      obtain ⟨rfl, ha⟩ := h
      rw [Bool.true_and]
      exact k a ha

/-- A step that cannot fail leaves the test as it is. -/
theorem bind_ok {f : α → Except ε β} (h : Settles b good bad r)
    (k : ∀ a, good a → ∃ y, f a = .ok y ∧ good' y) : Settles b good' bad (r >>= f) := by
  cases r with
  | error e => exact h
  | ok a =>
      obtain ⟨y, hy, hgood⟩ := k a h.2
      show Settles b good' bad (f a)
      rw [hy]
      exact ⟨h.1, hgood⟩

theorem map {f : α → β} (h : Settles b good bad r) (hf : ∀ a, good a → good' (f a)) :
    Settles b good' bad (r >>= fun a => pure (f a)) :=
  h.bind_ok fun a ha => ⟨f a, rfl, hf a ha⟩

theorem mono {good₂ : α → Prop} (h : Settles b good bad r) (hg : ∀ a, good a → good₂ a) :
    Settles b good₂ bad r := by
  cases r with
  | error e => exact h
  | ok a => exact ⟨h.1, hg a h.2⟩

theorem of_eq (h : Settles b good bad r) (hbc : b = c) : Settles c good bad r := hbc ▸ h

theorem eq_error {e : ε} (h : Settles false good (· = e) r) : r = .error e := by
  cases r with
  | error e' => rw [h.2]
  | ok a => exact Bool.noConfusion h.1

theorem exists_good (h : Settles true good bad r) : ∃ a, r = .ok a ∧ good a := by
  cases r with
  | error e => exact Bool.noConfusion h.1
  | ok a => exact ⟨a, rfl, h.2⟩

end Settles

/-! ### Computations that have succeeded -/

section

variable {ε α β : Type}

/-- What a computation of two steps yields. -/
theorem bind_eq_ok_iff {r : Except ε α} {f : α → Except ε β} {b : β} :
    r >>= f = .ok b ↔ ∃ a, r = .ok a ∧ f a = .ok b := by
  cases r <;> simp [bind, Except.bind]

theorem pure_eq_ok_iff {a b : α} : (pure a : Except ε α) = .ok b ↔ b = a := by
  simp [pure, Except.pure, eq_comm]

variable {f : α → Except ε (Option β)} {x : α} {xs : List α} {ys : List β}

theorem filterMapM_cons_eq_ok_iff : (x :: xs).filterMapM f = .ok ys ↔
    ∃ picked rest, f x = .ok picked ∧ xs.filterMapM f = .ok rest ∧ ys = picked.toList ++ rest := by
  rw [List.filterMapM_cons, bind_eq_ok_iff]
  constructor
  · rintro ⟨picked, hpicked, hrest⟩
    cases picked with
    | none => exact ⟨none, ys, hpicked, hrest, rfl⟩
    | some y =>
        obtain ⟨rest, hrest, hys⟩ := bind_eq_ok_iff.mp hrest
        exact ⟨some y, rest, hpicked, hrest, pure_eq_ok_iff.mp hys⟩
  · rintro ⟨picked, rest, hpicked, hrest, rfl⟩
    refine ⟨picked, hpicked, ?_⟩
    cases picked with
    | none => exact hrest
    | some y => exact bind_eq_ok_iff.mpr ⟨rest, hrest, rfl⟩

/-- What is picked is what is found at the members, in their order. -/
theorem filterMapM_eq_ok_iff : xs.filterMapM f = .ok ys ↔
    ∃ found, List.Forall₂ (fun x picked => f x = .ok picked) xs found ∧
      ys = found.reduceOption := by
  induction xs generalizing ys with
  | nil => simp [pure_eq_ok_iff]
  | cons x xs ih =>
      simp only [filterMapM_cons_eq_ok_iff, ih, List.forall₂_cons_left_iff]
      constructor
      · rintro ⟨picked, rest, hpicked, ⟨found, hfound, rfl⟩, rfl⟩
        refine ⟨picked :: found, ⟨picked, found, hpicked, hfound, rfl⟩, ?_⟩
        cases picked <;> rfl
      · rintro ⟨_, ⟨picked, found, hpicked, hfound, rfl⟩, rfl⟩
        refine ⟨picked, found.reduceOption, hpicked, ⟨found, hfound, rfl⟩, ?_⟩
        cases picked <;> rfl

/-- Nothing is picked if nothing is picked at any member. -/
theorem filterMapM_eq_nil_iff : xs.filterMapM f = .ok [] ↔ ∀ x ∈ xs, f x = .ok none := by
  induction xs with
  | nil => simp [pure_eq_ok_iff]
  | cons x xs ih =>
      rw [filterMapM_cons_eq_ok_iff, List.forall_mem_cons, ← ih]
      constructor
      · rintro ⟨picked, rest, hpicked, hrest, hnil⟩
        obtain ⟨hnone, rfl⟩ := List.append_eq_nil_iff.mp hnil.symm
        obtain rfl := Option.toList_eq_nil_iff.mp hnone
        exact ⟨hpicked, hrest⟩
      · rintro ⟨hpicked, hrest⟩
        exact ⟨none, [], hpicked, hrest, rfl⟩

/-- What is picked is picked at some member. -/
theorem exists_of_mem_filterMapM (h : xs.filterMapM f = .ok ys) {y : β} (hy : y ∈ ys) :
    ∃ x ∈ xs, f x = .ok (some y) := by
  induction xs generalizing ys with
  | nil =>
      obtain rfl := pure_eq_ok_iff.mp h
      cases hy
  | cons x xs ih =>
      obtain ⟨picked, rest, hpicked, hrest, rfl⟩ := filterMapM_cons_eq_ok_iff.mp h
      rcases List.mem_append.mp hy with hy | hy
      · obtain rfl := Option.mem_toList.mp hy
        exact ⟨x, List.mem_cons_self, hpicked⟩
      · obtain ⟨x, hx, hfx⟩ := ih hrest hy
        exact ⟨x, List.mem_cons_of_mem _ hx, hfx⟩

/-- What a walk over a list yields is yielded at some member. -/
theorem exists_of_mem_mapM {g : α → Except ε β} {ys : List β} (h : xs.mapM g = .ok ys) {y : β}
    (hy : y ∈ ys) : ∃ x ∈ xs, g x = .ok y := by
  induction xs generalizing ys with
  | nil =>
      obtain rfl := pure_eq_ok_iff.mp h
      cases hy
  | cons x xs ih =>
      rw [List.mapM_cons, bind_eq_ok_iff] at h
      obtain ⟨first, hfirst, h⟩ := h
      obtain ⟨rest, hrest, h⟩ := bind_eq_ok_iff.mp h
      obtain rfl := pure_eq_ok_iff.mp h
      rcases List.mem_cons.mp hy with rfl | hy
      · exact ⟨x, List.mem_cons_self, hfirst⟩
      · obtain ⟨other, hother, hyields⟩ := ih hrest hy
        exact ⟨other, List.mem_cons_of_mem _ hother, hyields⟩

end

end PhpMigration
