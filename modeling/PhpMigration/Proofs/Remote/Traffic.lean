/-
Calls through a circuit breaker that overlap.

Several calls may be under way at a time, and each of them reports its outcome at some later moment,
or never.  The breaker is not told which call an outcome belongs to, so an outcome counts for the
state in which it is reported, and a call may have been let through long before.

Beside the breaker it is noted what the breaker does not know: how often the circuit has changed, and
since it last did, at which moment that was, how many calls have been let through, and what has been
reported by which calls.  A spell is the time from one change to the next; a call is known by the
spell in which it was let through.

What carries everything is `Traffic.Fits`: in each state the counters of the breaker are what has
been noted in the present spell.  While the circuit is half open, every trial that was let through
has either succeeded or is still under way, unless a success of another call was counted in its
place, so the trials are no more than both together.
-/
import PhpMigration.Proofs.Remote.Breaker

namespace PhpMigration

/-- The outcome that a call has reported; the call is known by its spell. -/
structure CallReport where
  spell : Nat
  success : Bool
  deriving DecidableEq, Repr

/-- What can happen at a time; the call that reports is known by its place among those that are
under way. -/
inductive TrafficEvent where
  | tick (now : Numeral)
  | ask
  | report (place : Nat) (success : Bool)
  deriving DecidableEq, Repr

/-- A breaker and the calls that are under way. -/
structure Traffic where
  breaker : Breaker
  now : Numeral
  /-- The calls under way, each with the spell in which it was let through. -/
  calls : List Nat := []
  /-- The changes of the circuit so far. -/
  spell : Nat := 0
  /-- The moment of the last one. -/
  since : Numeral
  /-- The calls let through since then. -/
  admitted : Nat := 0
  /-- What has been reported since then, the oldest first. -/
  reports : List CallReport := []
  deriving DecidableEq, Repr

namespace Traffic

/-- The breaker comes into another state.  If the circuit has changed, a spell begins. -/
def turn (b : Breaker) (t : Traffic) : Traffic :=
  if b.circuit = t.breaker.circuit then { t with breaker := b }
  else { t with
    breaker := b, spell := t.spell + 1, since := t.now, admitted := 0, reports := [] }

/-- A call is let through. -/
def letThrough (t : Traffic) : Traffic :=
  { t with calls := t.calls ++ [t.spell], admitted := t.admitted + 1 }

/-- The breaker after it was told an outcome. -/
def told (t : Traffic) (success : Bool) : Breaker :=
  if success then t.breaker.succeed.2 else (t.breaker.fail t.now).2

/-- A call of a spell reports its outcome; it was at a place among those under way. -/
def report (t : Traffic) (place spell : Nat) (success : Bool) : Traffic :=
  ({ t with calls := t.calls.eraseIdx place, reports := t.reports ++ [⟨spell, success⟩] } :
    Traffic).turn (t.told success)

/-- What happens at an event.  A place at which there is no call has nothing to report. -/
def step (t : Traffic) : TrafficEvent → Traffic
  | .tick now => { t with now }
  | .ask =>
    match t.breaker.allow t.now with
    | (.ok true, b) => (t.turn b).letThrough
    | (_, b) => t.turn b
  | .report place success =>
    match t.calls[place]? with
    | some spell => t.report place spell success
    | none => t

/-- What happens at one event after another. -/
def run (t : Traffic) (events : List TrafficEvent) : Traffic := events.foldl step t

/-- A breaker that nobody has asked yet. -/
def start (l : Limits) (now : Numeral) : Traffic :=
  { breaker := { settings := l.settings }, now, since := now }

/-- The failures that were reported since the last success, or since the circuit changed. -/
def failuresInARow (t : Traffic) : Nat := (t.reports.reverse.takeWhile (!·.success)).length

/-- The successes that were reported since the circuit changed. -/
def successes (t : Traffic) : Nat := t.reports.countP (·.success)

/-! ### Counters and notes -/

/-- The counters of the breaker agree with what has been noted. -/
structure Fits (l : Limits) (t : Traffic) : Prop where
  settings : t.breaker.settings = l.settings
  closed : t.breaker.circuit = .closed →
    t.breaker.failures = t.failuresInARow ∧ t.breaker.failures < l.failureThreshold
  opened : t.breaker.circuit = .opened → t.breaker.openedAt = t.since
  trials : t.breaker.circuit = .halfOpen →
    t.breaker.trials = t.admitted ∧ t.breaker.trials ≤ l.maxTrials
  successes : t.breaker.circuit = .halfOpen →
    t.breaker.successes = t.successes ∧ t.breaker.successes < l.maxTrials
  /-- Every trial has succeeded or is still under way. -/
  awaited : t.breaker.circuit = .halfOpen →
    t.breaker.trials ≤ t.breaker.successes + t.calls.count t.spell

variable {l : Limits} {t : Traffic}

theorem fits_start (l : Limits) (now : Numeral) : (start l now).Fits l where
  settings := rfl
  closed _ := ⟨rfl, l.failureThreshold_pos⟩
  opened h := by cases h
  trials h := by cases h
  successes h := by cases h
  awaited h := by cases h

theorem turn_of_eq {b : Breaker} (h : b.circuit = t.breaker.circuit) :
    t.turn b = { t with breaker := b } := by
  unfold turn
  rw [if_pos h]

theorem turn_of_ne {b : Breaker} (h : b.circuit ≠ t.breaker.circuit) : t.turn b =
    { t with breaker := b, spell := t.spell + 1, since := t.now, admitted := 0, reports := [] } := by
  unfold turn
  rw [if_neg h]

/-- A call that is asked for: what the breaker answers, and what is noted of it. -/
theorem Fits.ask (h : t.Fits l) : (t.step .ask).Fits l := by
  unfold step
  cases hc : t.breaker.circuit with
  | closed =>
      rw [Breaker.allow_closed hc]
      dsimp only
      rw [turn_of_eq (by rfl)]
      exact
        { settings := h.settings
          closed := h.closed
          opened := fun ho => by cases hc.symm.trans ho
          trials := fun ho => by cases hc.symm.trans ho
          successes := fun ho => by cases hc.symm.trans ho
          awaited := fun ho => by cases hc.symm.trans ho }
  | halfOpen =>
      rw [Breaker.allow_halfOpen h.settings hc]
      by_cases hmore : t.breaker.trials < l.maxTrials
      · rw [if_pos hmore]
        dsimp only
        rw [turn_of_eq (by rfl)]
        obtain ⟨htrials, -⟩ := h.trials hc
        have hawaited := h.awaited hc
        refine
          { settings := h.settings
            closed := fun ho => by cases hc.symm.trans ho
            opened := fun ho => by cases hc.symm.trans ho
            trials := fun _ => ⟨congrArg (· + 1) htrials, hmore⟩
            successes := h.successes
            awaited := fun _ => ?_ }
        show t.breaker.trials + 1 ≤ t.breaker.successes + (t.calls ++ [t.spell]).count t.spell
        rw [List.count_append, List.count_singleton_self]
        omega
      · rw [if_neg hmore]
        dsimp only
        rw [turn_of_eq (by rfl)]
        exact h
  | opened =>
      rw [Breaker.allow_opened h.settings hc]
      by_cases hwait : (t.now.sub t.breaker.openedAt).lt l.recoveryTimeout = true
      · rw [if_pos hwait]
        dsimp only
        rw [turn_of_eq (by rfl)]
        exact h
      · rw [if_neg hwait]
        dsimp only
        rw [turn_of_ne (by rw [hc]; exact nofun)]
        refine
          { settings := h.settings
            closed := nofun
            opened := nofun
            trials := fun _ => ⟨rfl, l.maxTrials_pos⟩
            successes := fun _ => ⟨rfl, l.maxTrials_pos⟩
            awaited := fun _ => ?_ }
        show 1 ≤ 0 + (t.calls ++ [t.spell + 1]).count (t.spell + 1)
        rw [List.count_append, List.count_singleton_self]
        omega

theorem failuresInARow_snoc (t : Traffic) (r : CallReport) :
    ({ t with reports := t.reports ++ [r] } : Traffic).failuresInARow =
      if r.success then 0 else t.failuresInARow + 1 := by
  unfold failuresInARow
  rw [List.reverse_append, List.reverse_singleton, List.singleton_append, List.takeWhile_cons]
  cases r.success <;> rfl

theorem successes_snoc (t : Traffic) (r : CallReport) :
    ({ t with reports := t.reports ++ [r] } : Traffic).successes =
      t.successes + if r.success then 1 else 0 := by
  unfold successes
  rw [List.countP_append, List.countP_singleton]

/-- A call that has reported is no longer under way, but all others of its spell are. -/
theorem count_le_count_eraseIdx (calls : List Nat) (place spell : Nat) :
    calls.count spell ≤ (calls.eraseIdx place).count spell + 1 := by
  induction calls generalizing place with
  | nil => exact Nat.zero_le _
  | cons call rest ih =>
      cases place with
      | zero =>
          rw [List.eraseIdx_cons_zero, List.count_cons]
          split <;> omega
      | succ place =>
          have hrest := ih place
          rw [List.eraseIdx_cons_succ, List.count_cons, List.count_cons]
          omega

/-- A success that is reported, by whatever call. -/
theorem Fits.succeed (h : t.Fits l) (place spell : Nat) :
    (t.report place spell true).Fits l := by
  show ((_ : Traffic).turn t.breaker.succeed.2).Fits l
  by_cases hc : t.breaker.circuit = .halfOpen
  · rw [Breaker.succeed_halfOpen h.settings hc]
    obtain ⟨hsuccesses, hfew⟩ := h.successes hc
    by_cases hmore : t.breaker.successes + 1 < l.maxTrials
    · rw [if_pos hmore, turn_of_eq (by rfl)]
      refine
        { settings := h.settings
          closed := fun ho => by cases hc.symm.trans ho
          opened := fun ho => by cases hc.symm.trans ho
          trials := h.trials
          successes := fun _ => ⟨?_, hmore⟩
          awaited := fun _ => ?_ }
      · show t.breaker.successes + 1 =
          ({ t with reports := t.reports ++ [⟨spell, true⟩] } : Traffic).successes
        rw [successes_snoc, ← hsuccesses, if_pos rfl]
      · have hawaited := h.awaited hc
        have hcount := count_le_count_eraseIdx t.calls place t.spell
        show t.breaker.trials ≤ t.breaker.successes + 1 + (t.calls.eraseIdx place).count t.spell
        omega
    · rw [if_neg hmore, turn_of_ne (by rw [hc]; exact nofun)]
      exact
        { settings := h.settings
          closed := fun _ => ⟨rfl, l.failureThreshold_pos⟩
          opened := nofun
          trials := nofun
          successes := nofun
          awaited := nofun }
  · rw [Breaker.succeed_of_ne hc, turn_of_eq (by rfl)]
    refine
      { settings := h.settings
        closed := fun _ => ⟨?_, l.failureThreshold_pos⟩
        opened := h.opened
        trials := fun ho => absurd ho hc
        successes := fun ho => absurd ho hc
        awaited := fun ho => absurd ho hc }
    show 0 = ({ t with reports := t.reports ++ [⟨spell, true⟩] } : Traffic).failuresInARow
    rw [failuresInARow_snoc, if_pos rfl]

/-- A failure that is reported, by whatever call. -/
theorem Fits.fail (h : t.Fits l) (place spell : Nat) :
    (t.report place spell false).Fits l := by
  show ((_ : Traffic).turn (t.breaker.fail t.now).2).Fits l
  cases hc : t.breaker.circuit with
  | closed =>
      rw [Breaker.fail_closed h.settings hc]
      obtain ⟨hfailures, hfew⟩ := h.closed hc
      by_cases hmore : t.breaker.failures + 1 < l.failureThreshold
      · rw [if_pos hmore, turn_of_eq (by rfl)]
        refine
          { settings := h.settings
            closed := fun _ => ⟨?_, hmore⟩
            opened := fun ho => by cases hc.symm.trans ho
            trials := fun ho => by cases hc.symm.trans ho
            successes := fun ho => by cases hc.symm.trans ho
            awaited := fun ho => by cases hc.symm.trans ho }
        show t.breaker.failures + 1 =
          ({ t with reports := t.reports ++ [⟨spell, false⟩] } : Traffic).failuresInARow
        rw [failuresInARow_snoc, ← hfailures]
        rfl
      · rw [if_neg hmore, turn_of_ne (by rw [hc]; exact nofun)]
        exact
          { settings := h.settings
            closed := nofun
            opened := fun _ => rfl
            trials := nofun
            successes := nofun
            awaited := nofun }
  | halfOpen =>
      rw [Breaker.fail_halfOpen hc, turn_of_ne (by rw [hc]; exact nofun)]
      exact
        { settings := h.settings
          closed := nofun
          opened := fun _ => rfl
          trials := nofun
          successes := nofun
          awaited := nofun }
  | opened =>
      rw [Breaker.fail_opened hc, turn_of_eq (by rfl)]
      exact
        { settings := h.settings
          closed := fun ho => by cases hc.symm.trans ho
          opened := h.opened
          trials := fun ho => by cases hc.symm.trans ho
          successes := fun ho => by cases hc.symm.trans ho
          awaited := fun ho => by cases hc.symm.trans ho }

theorem Fits.step (h : t.Fits l) (e : TrafficEvent) : (t.step e).Fits l := by
  cases e with
  | tick now =>
      exact ⟨h.settings, h.closed, h.opened, h.trials, h.successes, h.awaited⟩
  | ask => exact h.ask
  | report place success =>
      unfold Traffic.step
      dsimp only
      cases t.calls[place]? with
      | none => exact h
      | some spell =>
          cases success with
          | true => exact h.succeed place spell
          | false => exact h.fail place spell

/-- The counters agree with the notes after any events. -/
theorem fits_run (l : Limits) (now : Numeral) (events : List TrafficEvent) :
    ((start l now).run events).Fits l := by
  suffices hall : ∀ t : Traffic, t.Fits l → (t.run events).Fits l from hall _ (fits_start l now)
  induction events with
  | nil => exact fun t h => h
  | cons e rest ih => exact fun t h => ih _ (h.step e)

/-! ### What callers can rely on -/

/-- **What holds of a breaker and its calls at any time.** -/
structure IsSafe (l : Limits) (t : Traffic) : Prop where
  /-- While the circuit is closed, the failures in a row are counted, and there are not enough of
  them to open it. -/
  closed : t.breaker.circuit = .closed →
    t.breaker.failures = t.failuresInARow ∧ t.breaker.failures < l.failureThreshold
  /-- An open circuit refuses every call until the recovery time has passed since it opened, and
  then lets the first one through. -/
  opened : t.breaker.circuit = .opened → ∀ now,
    (t.breaker.allow now).1 = .ok (!(now.sub t.since).lt l.recoveryTimeout)
  /-- While the circuit is half open, no more calls are let through than are allowed, and fewer
  successes are counted. -/
  halfOpen : t.breaker.circuit = .halfOpen → t.admitted ≤ l.maxTrials ∧
    t.breaker.successes = t.successes ∧ t.breaker.successes < l.maxTrials
  /-- It lets a call through or refuses it, and if it refuses one, a call that was let through
  since it became half open is still under way. -/
  awaited : t.breaker.circuit = .halfOpen → ∀ now,
    (t.breaker.allow now).1 = .ok true ∨
      (t.breaker.allow now).1 = .ok false ∧ t.spell ∈ t.calls

theorem Fits.isSafe (h : t.Fits l) : t.IsSafe l where
  closed := h.closed
  opened hc now := by
    rw [Breaker.allow_opened h.settings hc, h.opened hc]
    cases (now.sub t.since).lt l.recoveryTimeout <;> rfl
  halfOpen hc := by
    obtain ⟨htrials, hmost⟩ := h.trials hc
    exact ⟨htrials ▸ hmost, h.successes hc⟩
  awaited hc now := by
    rw [Breaker.allow_halfOpen h.settings hc]
    by_cases hmore : t.breaker.trials < l.maxTrials
    · rw [if_pos hmore]
      exact .inl rfl
    · rw [if_neg hmore]
      obtain ⟨-, hfew⟩ := h.successes hc
      have hawaited := h.awaited hc
      exact .inr ⟨rfl, List.count_pos_iff.mp (by omega)⟩

/-- **A breaker is safe whatever its callers do**: for all limits, in whatever order calls are asked
for and report, and at whatever moments. -/
theorem isSafe_run (l : Limits) (now : Numeral) (events : List TrafficEvent) :
    ((start l now).run events).IsSafe l :=
  (fits_run l now events).isSafe

/-! ### Whose outcomes count

A half-open circuit is meant to be closed or opened by its own trials.  It counts any success that
is reported, though, and any failure opens it, so calls of earlier spells can disturb it. -/

/-- What is reported at an event, if anything is. -/
def reported? (t : Traffic) : TrafficEvent → Option CallReport
  | .report place success => t.calls[place]?.map fun spell => ⟨spell, success⟩
  | .tick _ | .ask => none

/-- What has been reported since the circuit changed, with what is reported at an event. -/
def reportsWith (t : Traffic) (e : TrafficEvent) : List CallReport :=
  t.reports ++ (t.reported? e).toList

/-- The report is of a success of a call of the present spell. -/
def isOwnSuccess (t : Traffic) (r : CallReport) : Bool := r.success && r.spell == t.spell

/-- **What is meant by trials**: an event closes a half-open circuit only when enough calls that
were let through since it became half open have succeeded, and the outcome of any other call leaves
it half open. -/
structure ClosesOnTrials (l : Limits) (t : Traffic) (e : TrafficEvent) : Prop where
  closes : t.breaker.circuit = .halfOpen → (t.step e).breaker.circuit = .closed →
    l.maxTrials ≤ (t.reportsWith e).countP t.isOwnSuccess
  others : t.breaker.circuit = .halfOpen → ∀ r, t.reported? e = some r → r.spell ≠ t.spell →
    (t.step e).breaker.circuit = .halfOpen

/-- No call of an earlier spell fails while the circuit is half open, and none has succeeded since it
became so when it closes. -/
structure IsUndisturbed (t : Traffic) (e : TrafficEvent) : Prop where
  failures : t.breaker.circuit = .halfOpen → ∀ r, t.reported? e = some r → r.spell ≠ t.spell →
    r.success = true
  successes : t.breaker.circuit = .halfOpen → (t.step e).breaker.circuit = .closed →
    ∀ r ∈ t.reportsWith e, r.success = true → r.spell = t.spell

theorem step_report {place spell : Nat} (hcall : t.calls[place]? = some spell) (success : Bool) :
    t.step (.report place success) = t.report place spell success := by
  unfold step
  dsimp only
  rw [hcall]

theorem turn_breaker (b : Breaker) (t : Traffic) : (t.turn b).breaker = b := by
  unfold turn
  split <;> rfl

/-- What a half-open circuit becomes at a report. -/
theorem Fits.report_circuit (h : t.Fits l) (hc : t.breaker.circuit = .halfOpen)
    (place spell : Nat) (success : Bool) : (t.report place spell success).breaker.circuit =
      if success then if t.successes + 1 < l.maxTrials then .halfOpen else .closed
      else .opened := by
  unfold report told
  rw [turn_breaker]
  cases success with
  | false =>
      rw [if_neg Bool.false_ne_true, if_neg Bool.false_ne_true, Breaker.fail_halfOpen hc]
  | true =>
      rw [if_pos rfl, if_pos rfl, Breaker.succeed_halfOpen h.settings hc, ← (h.successes hc).1]
      split
      · exact hc
      · rfl

/-- A half-open circuit is closed by nothing but a success, and then as many successes have been
reported as there are trials. -/
theorem Fits.of_closed (h : t.Fits l) (hc : t.breaker.circuit = .halfOpen) {e : TrafficEvent}
    (hclosed : (t.step e).breaker.circuit = .closed) :
    (t.reportsWith e).countP (·.success) = l.maxTrials := by
  cases e with
  | tick now => cases hc.symm.trans hclosed
  | ask =>
      unfold Traffic.step at hclosed
      dsimp only at hclosed
      rw [Breaker.allow_halfOpen h.settings hc] at hclosed
      by_cases hmore : t.breaker.trials < l.maxTrials
      · rw [if_pos hmore] at hclosed
        change ((t.turn _).breaker).circuit = .closed at hclosed
        rw [turn_breaker] at hclosed
        cases hc.symm.trans hclosed
      · rw [if_neg hmore] at hclosed
        change ((t.turn _).breaker).circuit = .closed at hclosed
        rw [turn_breaker] at hclosed
        cases hc.symm.trans hclosed
  | report place success =>
      cases hcall : t.calls[place]? with
      | none =>
          unfold Traffic.step at hclosed
          dsimp only at hclosed
          rw [hcall] at hclosed
          cases hc.symm.trans hclosed
      | some spell =>
          rw [step_report hcall, h.report_circuit hc] at hclosed
          unfold reportsWith reported?
          dsimp only
          rw [hcall]
          cases success with
          | false => cases hclosed
          | true =>
              obtain ⟨hsuccesses, hfew⟩ := h.successes hc
              by_cases hmore : t.successes + 1 < l.maxTrials
              · rw [if_pos rfl, if_pos hmore] at hclosed
                cases hclosed
              · rw [List.countP_append]
                show t.successes + 1 = l.maxTrials
                omega

/-- The successes are those of the present spell and those of other calls. -/
theorem countP_success (t : Traffic) (reports : List CallReport) :
    reports.countP (·.success) = reports.countP t.isOwnSuccess +
      reports.countP fun r => r.success && r.spell != t.spell := by
  induction reports with
  | nil => rfl
  | cons r rest ih =>
      rw [List.countP_cons, List.countP_cons, List.countP_cons, ih]
      unfold isOwnSuccess
      cases r.success <;> cases hspell : r.spell == t.spell <;> simp [bne, hspell] <;> omega

theorem Fits.closesOnTrials_iff (h : t.Fits l) (e : TrafficEvent) :
    t.ClosesOnTrials l e ↔ t.IsUndisturbed e := by
  have hothers : ((t.reportsWith e).countP fun r => r.success && r.spell != t.spell) = 0 ↔
      ∀ r ∈ t.reportsWith e, r.success = true → r.spell = t.spell := by
    rw [List.countP_eq_zero]
    simp
  have hall := t.countP_success (t.reportsWith e)
  constructor
  · intro htrials
    refine ⟨fun hc r hr hlate => ?_, fun hc hclosed => ?_⟩
    · have hstays := htrials.others hc r hr hlate
      cases e with
      | tick now => cases hr
      | ask => cases hr
      | report place success =>
          obtain ⟨spell, hcall, rfl⟩ := Option.map_eq_some_iff.mp hr
          rw [step_report hcall, h.report_circuit hc] at hstays
          cases success with
          | true => rfl
          | false => cases hstays
    · have hown := htrials.closes hc hclosed
      have htotal := h.of_closed hc hclosed
      exact hothers.mp (by omega)
  · intro hundisturbed
    refine ⟨fun hc hclosed => ?_, fun hc r hr hlate => ?_⟩
    · have hnone := hothers.mpr (hundisturbed.successes hc hclosed)
      have htotal := h.of_closed hc hclosed
      omega
    · have hsuccess := hundisturbed.failures hc r hr hlate
      have hmem : r ∈ t.reportsWith e := by
        unfold reportsWith
        rw [hr]
        exact List.mem_append_right _ (List.mem_singleton_self r)
      have hopen : (t.step e).breaker.circuit ≠ .closed := fun hclosed =>
        hlate (hundisturbed.successes hc hclosed r hmem hsuccess)
      cases e with
      | tick now => cases hr
      | ask => cases hr
      | report place success =>
          obtain ⟨spell, hcall, rfl⟩ := Option.map_eq_some_iff.mp hr
          obtain rfl : success = true := hsuccess
          rw [step_report hcall, h.report_circuit hc, if_pos rfl] at hopen ⊢
          by_cases hmore : t.successes + 1 < l.maxTrials
          · rw [if_pos hmore]
          · rw [if_neg hmore] at hopen
            exact absurd rfl hopen

/-- **A half-open circuit is governed by its own trials just as long as calls of earlier spells do
not disturb it.** -/
theorem closesOnTrials_run_iff (l : Limits) (now : Numeral) (events : List TrafficEvent)
    (e : TrafficEvent) :
    ((start l now).run events).ClosesOnTrials l e ↔ ((start l now).run events).IsUndisturbed e :=
  (fits_run l now events).closesOnTrials_iff e

/-- It may be closed by calls that were let through before it opened: here three are let through, the
first one fails, and the other two succeed when a trial has been let through. -/
theorem not_closesOnTrials_run : ¬ ∀ (l : Limits) (now : Numeral) (events : List TrafficEvent)
    (e : TrafficEvent), ((start l now).run events).ClosesOnTrials l e := by
  intro hall
  have htrials := hall ⟨1, 10, 2, by decide, by decide⟩ 0
    [.ask, .ask, .ask, .report 0 false, .tick 10, .ask, .report 0 true] (.report 0 true)
  exact absurd (htrials.closes (by decide) (by decide)) (by decide)

end Traffic

end PhpMigration
