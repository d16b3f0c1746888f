/-
Calling again after a failure.

A policy bounds the number of calls, says which failures call for another one, and how long to
wait after each.  The calls share a state, which is all they can change; between two calls the
state is told which call failed, how, and how long the wait is.  Most of the time that is a matter
for two: whoever asked to be told of it, and whoever sleeps (`pause`).
-/
import PhpMigration.Number.Numeral

namespace PhpMigration.Retry

/-- When to call again. -/
structure Policy (ε : Type) where
  maxAttempts : Int
  retryable : ε → Bool
  /-- The wait after the failed call of a number, counted from one. -/
  delay : Int → Numeral

/-- Why a policy brings no result. -/
inductive Defeat (ε : Type) where
  /-- The policy allows no call at all. -/
  | noAttempts
  /-- The last call failed. -/
  | failed (cause : ε)
  deriving Repr

/-- The wording for a policy that allows no call. -/
def noAttemptsMessage : String := "max_attempts must be >= 1"

/-- The wait grows by the base with every failed call. -/
def linearBackoff (base attempt : Numeral) : Numeral := base.mul (attempt.max 0)

variable {ε α σ : Type}

/-- The wait before the next call, if the failed call of a number is to be made again. -/
def Policy.again? (p : Policy ε) (attempt : Nat) (cause : ε) : Option Numeral :=
  if (attempt : Int) < p.maxAttempts && p.retryable cause then some (p.delay attempt) else none

theorem Policy.lt_of_again? {p : Policy ε} {attempt : Nat} {cause : ε} {delay : Numeral}
    (h : p.again? attempt cause = some delay) : (attempt : Int) < p.maxAttempts := by
  unfold Policy.again? at h
  split at h
  · rename_i hc
    simp only [Bool.and_eq_true, decide_eq_true_eq] at hc
    exact hc.1
  · exact absurd h (by simp)

/-- What is done between two calls: whoever has asked for it is told of the failed call, and then the
wait is slept through. -/
def pause (tell : Option (Nat → ε → Numeral → σ → σ)) (sleep : Numeral → σ → σ) (attempt : Nat)
    (cause : ε) (delay : Numeral) (s : σ) : σ :=
  sleep delay (match tell with
    | none => s
    | some tell => tell attempt cause delay s)

/-- Call number `attempt` and all calls after it. -/
def callFrom (p : Policy ε) (call : σ → Except ε α × σ) (wait : Nat → ε → Numeral → σ → σ)
    (attempt : Nat) (s : σ) : Except ε α × σ :=
  match call s with
  | (.ok value, s) => (.ok value, s)
  | (.error cause, s) =>
    match h : p.again? attempt cause with
    | none => (.error cause, s)
    | some delay => callFrom p call wait (attempt + 1) (wait attempt cause delay s)
  termination_by (p.maxAttempts - attempt).toNat
  decreasing_by
    have := Policy.lt_of_again? h
    omega

/-- Call until a call succeeds, fails for good, or no more calls are allowed. -/
def run (p : Policy ε) (call : σ → Except ε α × σ) (wait : Nat → ε → Numeral → σ → σ) (s : σ) :
    Except (Defeat ε) α × σ :=
  if p.maxAttempts < 1 then (.error .noAttempts, s)
  else
    let (result, s) := callFrom p call wait 1 s
    (result.mapError .failed, s)

end PhpMigration.Retry
