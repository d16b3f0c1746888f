/-
What a policy makes of a sequence of outcomes.

The calls of a run end with the first one that nothing is to follow: it has succeeded, it has failed in
a way that calls for no other one, or the policy allows no more.  Up to there every call has failed in
a way that calls for another one, so what has been done before a call is known from the failures alone
(`Policy.deeds`): each has been told of, and its wait has been slept through.  One lemma goes from a
call that another one follows to the next, and the run is the induction over it.
-/
import Mathlib.Data.List.Induction
import Mathlib.Data.Nat.Find
import Mathlib.Order.Bounds.Basic
import PhpMigration.Retry

namespace PhpMigration.Retry

variable {ε α : Type}

/-! ### What is done in a run -/

/-- Something that is done in a run. -/
inductive Deed (ε : Type) where
  | call
  /-- Whoever has asked for it is told that the call of a number has failed, why, and how long the
  wait is. -/
  | told (attempt : Nat) (cause : ε) (delay : Numeral)
  | slept (delay : Numeral)
  deriving DecidableEq, Repr

namespace Deed

/-- The deed is a call. -/
def isCall : Deed ε → Bool
  | .call => true
  | _ => false

/-- The calls meet the outcomes one after the other. -/
def answer (outcomes : Nat → Except ε α) (done : List (Deed ε)) : Except ε α × List (Deed ε) :=
  (outcomes (done.countP isCall), done ++ [.call])

/-- Being told of a failed call. -/
def tell (attempt : Nat) (cause : ε) (delay : Numeral) (done : List (Deed ε)) : List (Deed ε) :=
  done ++ [.told attempt cause delay]

/-- Sleeping. -/
def sleep (delay : Numeral) (done : List (Deed ε)) : List (Deed ε) := done ++ [.slept delay]

end Deed

open Deed

/-- A run that meets the outcomes; somebody has asked to be told, or nobody has. -/
def meet (p : Policy ε) (heard : Bool) (outcomes : Nat → Except ε α) :
    Except (Defeat ε) α × List (Deed ε) :=
  run p (answer outcomes) (pause (if heard then some tell else none) sleep) []

namespace Policy

variable (p : Policy ε) (heard : Bool) (outcomes : Nat → Except ε α)

/-- What is done for a failed call that another one follows: the call, the notice and the wait. -/
def round (attempt : Nat) (cause : ε) : List (Deed ε) :=
  .call :: (if heard then [.told attempt cause (p.delay attempt)] else []) ++ [.slept (p.delay attempt)]

/-- What is done for some failed calls, in their order. -/
def deeds (causes : List ε) : List (Deed ε) :=
  causes.zipIdx.flatMap fun (cause, i) => p.round heard (i + 1) cause

/-- The outcome calls for no other call: it is a success, or a failure that is not tried again. -/
def Settles : Except ε α → Prop
  | .ok _ => True
  | .error cause => p.retryable cause = false

/-- The call of a number, counted from one, may be the last: it is the last that is allowed, or its
outcome calls for no other one. -/
def MayEnd (n : Nat) : Prop :=
  1 ≤ n ∧ ((n : Int) = p.maxAttempts ∨ p.Settles (outcomes (n - 1)))

variable {p heard outcomes}

/-! ### One call -/

theorem deeds_snoc (causes : List ε) (cause : ε) : p.deeds heard (causes ++ [cause]) =
    p.deeds heard causes ++ p.round heard (causes.length + 1) cause := by
  unfold deeds
  rw [List.zipIdx_append, List.flatMap_append]
  simp

theorem countP_deeds (causes : List ε) : (p.deeds heard causes).countP isCall = causes.length := by
  have hround : ∀ attempt cause, (p.round heard attempt cause).countP isCall = 1 := by
    intro attempt cause
    cases heard <;> rfl
  induction causes using List.reverseRecOn with
  | nil => rfl
  | append_singleton causes cause ih =>
      rw [deeds_snoc, List.countP_append, ih, hround, List.length_append]
      rfl

/-- The notice and the wait complete the round of a call. -/
theorem pause_deeds (causes : List ε) (cause : ε) :
    pause (if heard then some tell else none) sleep (causes.length + 1) cause
        (p.delay (causes.length + 1 : Nat)) (p.deeds heard causes ++ [.call]) =
      p.deeds heard (causes ++ [cause]) := by
  rw [deeds_snoc]
  cases heard <;> simp [pause, Policy.round, Deed.tell, Deed.sleep]

/-- A call that may not be the last has failed, and another one follows it. -/
theorem exists_cause {n : Nat} (h : ¬p.MayEnd outcomes (n + 1)) :
    ∃ cause, outcomes n = .error cause ∧ p.retryable cause = true ∧ (n + 1 : Nat) ≠ p.maxAttempts := by
  obtain ⟨hmost, hsettles⟩ := not_or.mp fun hor => h ⟨Nat.le_add_left 1 n, hor⟩
  rw [Nat.add_sub_cancel] at hsettles
  cases houtcome : outcomes n with
  | ok value => exact absurd (houtcome ▸ trivial) hsettles
  | error cause =>
      rw [houtcome] at hsettles
      exact ⟨cause, rfl, Bool.of_not_eq_false hsettles, hmost⟩

variable {n : Nat} {causes : List ε}

/-- The last call: its outcome is the result. -/
theorem callFrom_last (hend : p.MayEnd outcomes (causes.length + 1)) :
    callFrom p (answer outcomes) (pause (if heard then some tell else none) sleep)
        (causes.length + 1) (p.deeds heard causes) =
      (outcomes causes.length, p.deeds heard causes ++ [.call]) := by
  have hanswer : answer outcomes (p.deeds heard causes) =
      (outcomes causes.length, p.deeds heard causes ++ [.call]) := by
    rw [answer, countP_deeds]
  rw [callFrom, hanswer]
  cases houtcome : outcomes causes.length with
  | ok value => rfl
  | error cause =>
      have hagain : p.again? (causes.length + 1) cause = none := by
        have hsettles := hend.2
        rw [Nat.add_sub_cancel, houtcome] at hsettles
        unfold again?
        rw [if_neg]
        rcases hsettles with hmost | hfinal
        · simp [hmost]
        · simp [show p.retryable cause = false from hfinal]
      dsimp only
      split
      · rfl
      · rename_i hsome
        rw [hagain] at hsome
        cases hsome

/-- **A call that another one follows** is told of, and its wait is slept through. -/
theorem callFrom_next {cause : ε} (houtcome : outcomes causes.length = .error cause)
    (hretryable : p.retryable cause = true) (hlt : (causes.length + 1 : Nat) < p.maxAttempts) :
    callFrom p (answer outcomes) (pause (if heard then some tell else none) sleep)
        (causes.length + 1) (p.deeds heard causes) =
      callFrom p (answer outcomes) (pause (if heard then some tell else none) sleep)
        ((causes ++ [cause]).length + 1) (p.deeds heard (causes ++ [cause])) := by
  have hanswer : answer outcomes (p.deeds heard causes) =
      (.error cause, p.deeds heard causes ++ [.call]) := by
    rw [answer, countP_deeds, houtcome]
  have hagain : p.again? (causes.length + 1) cause = some (p.delay (causes.length + 1 : Nat)) := by
    unfold again?
    rw [if_pos (by simpa [hretryable] using hlt)]
  rw [callFrom, hanswer, ← pause_deeds, List.length_append]
  dsimp only
  split
  · rename_i hnone
    rw [hagain] at hnone
    cases hnone
  · rename_i delay hsome
    rw [hagain] at hsome
    obtain rfl := Option.some.inj hsome
    rfl

/-! ### The run -/

/-- From any call on, the run goes to the first call that may be the last. -/
theorem callFrom_eq (hn : IsLeast {k | p.MayEnd outcomes k} n) (hmost : (n : Int) ≤ p.maxAttempts)
    (hlt : causes.length < n)
    (hcauses : (List.range causes.length).map outcomes = causes.map .error) :
    ∃ more, (List.range (n - 1)).map outcomes = more.map .error ∧
      callFrom p (answer outcomes) (pause (if heard then some tell else none) sleep)
          (causes.length + 1) (p.deeds heard causes) =
        (outcomes (n - 1), p.deeds heard more ++ [.call]) := by
  induction hleft : n - 1 - causes.length generalizing causes with
  | zero =>
      obtain rfl : n = causes.length + 1 := by omega
      exact ⟨causes, hcauses, callFrom_last hn.1⟩
  | succ left ih =>
      have hnot : ¬p.MayEnd outcomes (causes.length + 1) := by
        intro hend
        have := hn.2 hend
        omega
      obtain ⟨cause, houtcome, hretryable, hne⟩ := exists_cause hnot
      have hlength : (causes ++ [cause]).length = causes.length + 1 := List.length_append
      rw [callFrom_next houtcome hretryable (by omega)]
      refine ih (by omega) ?_ (by omega)
      rw [hlength, List.range_succ, List.map_append, hcauses, List.map_append]
      simp [houtcome]

theorem exists_isLeast_mayEnd (outcomes : Nat → Except ε α) (h : 1 ≤ p.maxAttempts) :
    ∃ n, IsLeast {k | p.MayEnd outcomes k} n ∧ (n : Int) ≤ p.maxAttempts := by
  classical
  obtain ⟨most, hmost⟩ := Int.eq_ofNat_of_zero_le (by omega : 0 ≤ p.maxAttempts)
  have hend : p.MayEnd outcomes most := ⟨by omega, .inl hmost.symm⟩
  have hexists : ∃ k, p.MayEnd outcomes k := ⟨most, hend⟩
  refine ⟨Nat.find hexists, ⟨Nat.find_spec hexists, fun k hk => Nat.find_min' hexists hk⟩, ?_⟩
  have := Nat.find_min' hexists hend
  omega

end Policy

/-- **A run follows its policy on every sequence of outcomes.**  Without an attempt nothing is called.
Otherwise the last call is the first that may be: it has used up the attempts, has succeeded, or has
failed for a cause that is not tried again.  Its outcome is the result.  All calls before it have
failed for causes that are tried again, and for each of them, in order, notice is given and the wait of
its number is slept through. -/
theorem meet_follows (maxAttempts : Int) (retryable : ε → Bool) (backoff : Int → Numeral → Numeral)
    (base : Numeral) (heard : Bool) (outcomes : Nat → Except ε α) :
    let p : Policy ε := ⟨maxAttempts, retryable, fun attempt => backoff attempt base⟩
    (maxAttempts < 1 → meet p heard outcomes = (.error .noAttempts, [])) ∧
      (1 ≤ maxAttempts → ∃ n causes, IsLeast {k | p.MayEnd outcomes k} n ∧
        (List.range (n - 1)).map outcomes = causes.map .error ∧
        meet p heard outcomes =
          ((outcomes (n - 1)).mapError .failed, p.deeds heard causes ++ [.call]) ∧
        (meet p heard outcomes).2.countP isCall = n) := by
  intro p
  constructor
  · intro hnone
    unfold meet run
    rw [if_pos hnone]
  · intro hsome
    obtain ⟨n, hn, hmost⟩ := Policy.exists_isLeast_mayEnd (p := p) outcomes hsome
    obtain ⟨causes, hcauses, hcalls⟩ := @Policy.callFrom_eq _ _ p heard outcomes n [] hn hmost hn.1.1 rfl
    have hmeet : meet p heard outcomes =
        ((outcomes (n - 1)).mapError .failed, p.deeds heard causes ++ [.call]) := by
      unfold meet run
      rw [if_neg (show ¬p.maxAttempts < 1 from not_lt.mpr hsome)]
      rw [show callFrom p (answer outcomes) (pause (if heard then some tell else none) sleep) 1 [] = _
        from hcalls]
    have hlength := congrArg List.length hcauses
    rw [List.length_map, List.length_map, List.length_range] at hlength
    refine ⟨n, causes, hn, hcauses, hmeet, ?_⟩
    rw [hmeet, List.countP_append, Policy.countP_deeds, ← hlength]
    exact Nat.sub_add_cancel hn.1.1

end PhpMigration.Retry
