/-
What a circuit breaker does when its limits are numbers.

Then nothing that it is asked or told is a misfit (`allow_ok`, `succeed_ok`, `fail_ok`), and it keeps
its limits.  If the counts are held against whole numbers that are not zero (`Limits`), every case is
an equation without a failure in it, one for each state of the circuit.
-/
import PhpMigration.Remote.Breaker

namespace PhpMigration

/-- All limits are numbers. -/
structure BreakerSettings.AreNumbers (s : BreakerSettings) : Prop where
  failureThreshold : ∃ x, s.failureThreshold.needNumeral = .ok x
  recoveryTimeout : ∃ x, s.recoveryTimeout.needNumeral = .ok x
  maxTrials : ∃ x, s.maxTrials.needNumeral = .ok x

namespace Breaker

variable {b : Breaker} {now : Numeral}

/-! ### Limits that are numbers -/

theorem admitTrial_settings (b : Breaker) : b.admitTrial.2.settings = b.settings := by
  unfold admitTrial
  split <;> rfl

theorem allow_settings (now : Numeral) (b : Breaker) : (b.allow now).2.settings = b.settings := by
  unfold allow
  split
  · rfl
  · exact admitTrial_settings b
  · split
    · rfl
    · exact admitTrial_settings _
    · rfl

theorem reached_ok {limit : Value} (h : ∃ x, limit.needNumeral = .ok x) (count : Nat) :
    ∃ answer, reached limit count = .ok answer := by
  obtain ⟨x, hx⟩ := h
  exact ⟨x.le (.int count), by unfold reached; rw [hx]; rfl⟩

theorem below_ok {limit : Value} (h : ∃ x, limit.needNumeral = .ok x) (count : Nat) :
    ∃ answer, below limit count = .ok answer := by
  obtain ⟨x, hx⟩ := h
  exact ⟨(Numeral.int count).lt x, by unfold below; rw [hx]; rfl⟩

theorem recovered_ok (h : ∃ x, b.settings.recoveryTimeout.needNumeral = .ok x) (now : Numeral) :
    ∃ answer, b.recovered now = .ok answer := by
  obtain ⟨x, hx⟩ := h
  exact ⟨!(now.sub b.openedAt).lt x, by unfold recovered; rw [hx]; rfl⟩

theorem admitTrial_ok (h : b.settings.AreNumbers) : ∃ answer, b.admitTrial.1 = .ok answer := by
  obtain ⟨full, hfull⟩ := reached_ok h.maxTrials b.trials
  unfold admitTrial
  rw [hfull]
  cases full <;> exact ⟨_, rfl⟩

theorem allow_ok (h : b.settings.AreNumbers) (now : Numeral) :
    ∃ answer, (b.allow now).1 = .ok answer := by
  unfold allow
  cases b.circuit with
  | closed => exact ⟨_, rfl⟩
  | halfOpen => exact admitTrial_ok h
  | opened =>
      obtain ⟨passed, hpassed⟩ := recovered_ok h.recoveryTimeout now
      dsimp only
      rw [hpassed]
      cases passed with
      | false => exact ⟨_, rfl⟩
      | true =>
          refine admitTrial_ok ?_
          exact h

theorem succeed_ok (h : b.settings.AreNumbers) : b.succeed.1 = .ok () := by
  unfold succeed
  cases b.circuit with
  | closed => rfl
  | opened => rfl
  | halfOpen =>
      obtain ⟨more, hmore⟩ := below_ok h.maxTrials (b.successes + 1)
      dsimp only
      rw [hmore]
      cases more <;> rfl

theorem fail_ok (h : b.settings.AreNumbers) (now : Numeral) : (b.fail now).1 = .ok () := by
  unfold fail
  dsimp only
  cases b.circuit with
  | opened => rfl
  | halfOpen => rfl
  | closed =>
      obtain ⟨enough, henough⟩ := reached_ok h.failureThreshold (b.failures + 1)
      dsimp only
      rw [henough]
      cases enough <;> rfl

end Breaker

/-! ### Whole numbers for limits -/

/-- Limits that mean something: whole numbers of calls, of which there is at least one. -/
structure Limits where
  failureThreshold : Nat
  recoveryTimeout : Numeral
  maxTrials : Nat
  failureThreshold_pos : 0 < failureThreshold
  maxTrials_pos : 0 < maxTrials

/-- The usual limits. -/
instance : Inhabited Limits := ⟨⟨5, 30, 1, by decide, by decide⟩⟩

/-- The settings with these limits. -/
def Limits.settings (l : Limits) : BreakerSettings :=
  ⟨.int l.failureThreshold, .number l.recoveryTimeout, .int l.maxTrials⟩

namespace Breaker

variable {l : Limits} {b : Breaker}

theorem reached_int (limit count : Nat) :
    reached (.int limit) count = .ok (decide (limit ≤ count)) := by
  show Except.ok (!decide ((count : Int) < limit)) = _
  by_cases h : limit ≤ count
  · rw [decide_eq_true h, decide_eq_false (by omega)]
    rfl
  · rw [decide_eq_false h, decide_eq_true (by omega)]
    rfl

theorem below_int (limit count : Nat) : below (.int limit) count = .ok (decide (count < limit)) := by
  show Except.ok (decide ((count : Int) < limit)) = _
  by_cases h : count < limit
  · rw [decide_eq_true h, decide_eq_true (by omega)]
  · rw [decide_eq_false h, decide_eq_false (by omega)]

theorem admitTrial_eq (h : b.settings = l.settings) : b.admitTrial =
    if b.trials < l.maxTrials then (.ok true, { b with trials := b.trials + 1 })
    else (.ok false, b) := by
  unfold admitTrial
  rw [h]
  unfold Limits.settings
  dsimp only
  rw [reached_int]
  by_cases hmore : b.trials < l.maxTrials
  · rw [decide_eq_false (by omega), if_pos hmore]
  · rw [decide_eq_true (by omega), if_neg hmore]

theorem allow_closed (h : b.circuit = .closed) (now : Numeral) : b.allow now = (.ok true, b) := by
  unfold allow
  rw [h]

theorem allow_halfOpen (hs : b.settings = l.settings) (h : b.circuit = .halfOpen) (now : Numeral) :
    b.allow now = if b.trials < l.maxTrials then (.ok true, { b with trials := b.trials + 1 })
      else (.ok false, b) := by
  have htrial : b.allow now = b.admitTrial := by
    unfold allow
    rw [h]
  rw [htrial, admitTrial_eq hs]

/-- The first call that is let through after an open circuit has recovered is a trial. -/
theorem allow_opened (hs : b.settings = l.settings) (h : b.circuit = .opened) (now : Numeral) :
    b.allow now = if (now.sub b.openedAt).lt l.recoveryTimeout then (.ok false, b)
      else (.ok true, { b with circuit := .halfOpen, trials := 1, successes := 0 }) := by
  have hrecovered : b.recovered now = .ok (!(now.sub b.openedAt).lt l.recoveryTimeout) := by
    unfold recovered
    rw [hs]
    rfl
  have hfirst : ({ b with circuit := .halfOpen, trials := 0, successes := 0 } : Breaker).settings =
      l.settings := hs
  have htrial : ({ b with circuit := .halfOpen, trials := 0, successes := 0 } : Breaker).admitTrial =
      (.ok true, { b with circuit := .halfOpen, trials := 1, successes := 0 }) := by
    rw [admitTrial_eq hfirst, if_pos l.maxTrials_pos]
  unfold allow
  rw [h]
  dsimp only
  rw [hrecovered]
  cases (now.sub b.openedAt).lt l.recoveryTimeout with
  | true => rfl
  | false => exact htrial

theorem succeed_halfOpen (hs : b.settings = l.settings) (h : b.circuit = .halfOpen) :
    b.succeed.2 =
      if b.successes + 1 < l.maxTrials then { b with successes := b.successes + 1 }
      else { b with successes := b.successes + 1, circuit := .closed, failures := 0 } := by
  unfold succeed
  rw [h, hs]
  unfold Limits.settings
  dsimp only
  rw [below_int]
  by_cases hmore : b.successes + 1 < l.maxTrials
  · rw [decide_eq_true hmore, if_pos hmore]
  · rw [decide_eq_false hmore, if_neg hmore]

theorem succeed_of_ne (h : b.circuit ≠ .halfOpen) : b.succeed.2 = { b with failures := 0 } := by
  unfold succeed
  cases hc : b.circuit with
  | halfOpen => exact absurd hc h
  | closed => rfl
  | opened => rfl

theorem fail_closed (hs : b.settings = l.settings) (h : b.circuit = .closed) (now : Numeral) :
    (b.fail now).2 =
      if b.failures + 1 < l.failureThreshold then { b with failures := b.failures + 1 }
      else { b with failures := b.failures + 1, circuit := .opened, openedAt := now } := by
  unfold fail
  dsimp only
  rw [h, hs]
  unfold Limits.settings
  dsimp only
  rw [reached_int]
  by_cases hmore : b.failures + 1 < l.failureThreshold
  · rw [decide_eq_false (by omega), if_pos hmore]
  · rw [decide_eq_true (by omega), if_neg hmore]

theorem fail_halfOpen (h : b.circuit = .halfOpen) (now : Numeral) : (b.fail now).2 =
    { b with failures := b.failures + 1, circuit := .opened, openedAt := now } := by
  unfold fail
  dsimp only
  rw [h]

/-- A failure that is reported to an open circuit is only counted. -/
theorem fail_opened (h : b.circuit = .opened) (now : Numeral) :
    (b.fail now).2 = { b with failures := b.failures + 1 } := by
  unfold fail
  dsimp only
  rw [h]

end Breaker

end PhpMigration
