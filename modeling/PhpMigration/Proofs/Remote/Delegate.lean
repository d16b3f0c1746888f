/-
What comes of asking a remote model.

A call has one of two outcomes that whoever asked can deal with: a trimmed text that is not blank, or
a failure of a known kind, after which a text is converted here.  Every incident on the way to a
model is turned into such a failure, with one exception: a service that asks to be called less often
names the seconds to wait in a header, and if what it names has no end, it cannot be counted.  The
refusal is passed on then as a wait without end, which nothing on the way deals with, so the text is
not converted at all.

The headers of a service are any texts, so what has no end is said of the double that a header is
read as.  The breaker plays no part in it but to refuse the call.
-/
import PhpMigration.Conversion.Basic
import PhpMigration.Remote.Delegate
import PhpMigration.Proofs.Remote.Breaker
import PhpMigration.Proofs.Text.Blank

namespace PhpMigration

/-! ### Refusals without a meaning -/

namespace Refusal

/-- The service asks to be called less often, and the wait that it names is read as a double without
an end. -/
def IsEndless (r : Refusal) : Prop :=
  r.kind = .rateLimit ∧
    ∃ negative, (r.headers.find? "retry-after").bind Double.ofText? = some (.infinite negative)

theorem retryAfter?_eq_none_iff (r : Refusal) : r.retryAfter? = none ↔
    ∃ negative, (r.headers.find? "retry-after").bind Double.ofText? = some (.infinite negative) := by
  unfold retryAfter?
  cases (r.headers.find? "retry-after").bind Double.ofText? with
  | none => simp
  | some seconds =>
      cases seconds with
      | nan => simp
      | infinite negative => simp [Double.truncate?]
      | finite negative m e => simp [Double.truncate?]

/-- A refusal has a meaning for a conversion unless its wait has no end. -/
theorem toFailure?_eq_none_iff (r : Refusal) (service : String) :
    r.toFailure? service = none ↔ r.IsEndless := by
  unfold toFailure? IsEndless
  rw [← retryAfter?_eq_none_iff]
  cases r.kind <;> simp

end Refusal

namespace Delegate

/-! ### Outcomes that can be dealt with -/

/-- A trimmed text that is not blank, or a failure of a known kind. -/
def IsKnown : Except Incident String → Prop
  | .ok text => text ≠ "" ∧ Text.strip text = text
  | .error incident => ∃ f, incident = .failure f

/-- The reply of a model is a refusal that has no meaning. -/
def IsEndless (reply : Except Incident (Option String)) : Prop :=
  ∃ r : Refusal, reply = .error (.refusal r) ∧ r.IsEndless

theorem report_refusal (r : Refusal) : report (.refusal r) =
    ((r.toFailure? serviceName).map Incident.failure).getD .endlessWait := by
  unfold report classify
  dsimp only
  rw [show (Incident.refusal r).isInterruption = false from rfl, if_neg Bool.false_ne_true]
  cases r.toFailure? serviceName <;> rfl

theorem report_of_isEndless {r : Refusal} (h : r.IsEndless) :
    report (.refusal r) = .endlessWait := by
  rw [report_refusal, (r.toFailure?_eq_none_iff serviceName).mpr h]
  rfl

/-- Whatever else happens on the way to a model is told as a failure of a known kind. -/
theorem exists_report_eq {incident : Incident} (hordinary : incident.isInterruption = false)
    (hends : ∀ r : Refusal, incident = .refusal r → ¬ r.IsEndless) :
    ∃ f, report incident = .failure f := by
  cases incident with
  | failure f => exact ⟨f, rfl⟩
  | refusal r =>
      have hsome := mt (r.toFailure?_eq_none_iff serviceName).mp (hends r rfl)
      obtain ⟨f, hf⟩ := Option.ne_none_iff_exists'.mp hsome
      exact ⟨f, by rw [report_refusal, hf]; rfl⟩
  | other name text =>
      unfold report
      dsimp only
      rw [hordinary, if_neg Bool.false_ne_true]
      exact ⟨_, rfl⟩
  | _ => exact ⟨_, rfl⟩

/-- A reply is settled in a way that can be dealt with, unless it is a refusal without a meaning. -/
theorem isKnown_settle_iff {reply : Except Incident (Option String)}
    (hordinary : ∀ incident, reply = .error incident → incident.isInterruption = false) :
    IsKnown (settle reply) ↔ ¬ IsEndless reply := by
  cases reply with
  | ok content =>
      refine iff_of_true ?_ ?_
      · unfold settle
        dsimp only
        split
        · exact ⟨_, rfl⟩
        · rename_i hsome
          exact ⟨fun hnone => hsome (by rw [hnone]; rfl), Text.strip_strip _⟩
      · rintro ⟨r, hr, -⟩
        cases hr
  | error incident =>
      constructor
      · rintro ⟨f, hf⟩ ⟨r, hr, hends⟩
        cases hr
        rw [report_of_isEndless hends] at hf
        cases hf
      · intro hends
        exact exists_report_eq (hordinary incident rfl) fun r hr hno =>
          hends ⟨r, by rw [hr], hno⟩

/-! ### Behind the breaker -/

variable {ω : Type}

/-- A call that is not refused comes to what its reply is settled as. -/
theorem complete_result (ask : Chat.Request → Effect ω (Option String)) (clock : ω → Numeral)
    (instructions prompt : String) {b : Breaker} (w : ω) (hlimits : b.settings.AreNumbers) :
    (complete ask clock instructions prompt b w).1 =
      if (b.allow (clock w)).1 = .ok true then settle (ask (.ofPrompt instructions prompt) w).1
      else .error (.failure (.unavailable serviceName)) := by
  obtain ⟨admitted, hadmitted⟩ := Breaker.allow_ok hlimits (clock w)
  have hsettings := Breaker.allow_settings (clock w) b
  unfold complete
  cases hallow : b.allow (clock w) with
  | mk answer b' =>
      rw [hallow] at hadmitted hsettings
      obtain rfl : answer = .ok admitted := hadmitted
      cases admitted with
      | false => rfl
      | true =>
          rw [if_pos rfl]
          dsimp only
          have hnumbers : b'.settings.AreNumbers := by
            rw [show b'.settings = b.settings from hsettings]
            exact hlimits
          cases settle (ask (.ofPrompt instructions prompt) w).1 with
          | ok text =>
              unfold record
              rw [Breaker.succeed_ok hnumbers]
              rfl
          | error incident =>
              unfold record
              dsimp only
              split
              · rfl
              · rw [Breaker.fail_ok hnumbers]
                rfl

/-- The service that asks a model behind a breaker. -/
def asking (ask : Chat.Request → Effect ω (Option String)) (clock : ω → Numeral)
    (instructions : String) : Service (Breaker × ω) := fun prompt (b, w) =>
  complete ask clock instructions prompt b w

/-- **Asking a model has an outcome that can be dealt with, and a text without a reply is converted
here, unless the call is made and the reply is a refusal whose wait has no end.**  The limits of the
breaker must be numbers, and an order to end the whole program is dealt with by nobody. -/
theorem complete_isKnown_iff (ask : Chat.Request → Effect ω (Option String)) (clock : ω → Numeral)
    (instructions : String) (parser : SourceParser) (code fileName : String) (b : Breaker) (w : ω)
    (hlimits : b.settings.AreNumbers)
    (hordinary : ∀ incident, (ask (.ofPrompt instructions (buildPrompt code)) w).1 =
      .error incident → incident.isInterruption = false) :
    let t : TextConverter (Breaker × ω) := ⟨true, some (asking ask clock instructions), parser⟩
    let result := (complete ask clock instructions (buildPrompt code) b w).1
    (IsKnown result ∧ ((∀ reply, result ≠ .ok reply) → ∃ f, result = .error (.failure f) ∧
        (t.convert code fileName (b, w)).1 =
          t.fallBack code fileName [.delegateFailed (labelOf fileName) f])) ↔
      ¬ ((b.allow (clock w)).1 = .ok true ∧
        IsEndless (ask (.ofPrompt instructions (buildPrompt code)) w).1) := by
  intro t result
  have hresult : result = _ := complete_result ask clock instructions (buildPrompt code) w hlimits
  have hknown : IsKnown result ↔ ¬ ((b.allow (clock w)).1 = .ok true ∧
      IsEndless (ask (.ofPrompt instructions (buildPrompt code)) w).1) := by
    rw [hresult]
    by_cases hadmitted : (b.allow (clock w)).1 = .ok true
    · rw [if_pos hadmitted, isKnown_settle_iff hordinary]
      exact ⟨fun hno h => hno h.2, fun hno h => hno ⟨hadmitted, h⟩⟩
    · rw [if_neg hadmitted]
      exact iff_of_true ⟨_, rfl⟩ fun h => hadmitted h.1
  refine ⟨fun h => hknown.mp h.1, fun h => ⟨hknown.mpr h, fun hnone => ?_⟩⟩
  have hfails := hknown.mpr h
  cases hcase : result with
  | ok reply => exact absurd hcase (hnone reply)
  | error incident =>
      rw [hcase] at hfails
      obtain ⟨f, rfl⟩ := hfails
      refine ⟨f, rfl, ?_⟩
      show t.afterReply code fileName result = _
      rw [hcase]
      rfl

/-- A service that always refuses in the same way. -/
def refusing (r : Refusal) : Chat.Request → Effect Unit (Option String) := fun _ w =>
  (.error (.refusal r), w)

/-- A service that asks for a minute of patience. -/
theorem complete_isKnown_minute :
    IsKnown (complete (refusing ⟨.rateLimit, "slow down", [("retry-after", "60")]⟩) (fun _ => 0)
      "" (buildPrompt "") { settings := {} } ()).1 := by
  refine ((complete_isKnown_iff (refusing ⟨.rateLimit, "slow down", [("retry-after", "60")]⟩)
    (fun _ => 0) "" parseSource "" "" { settings := {} } ()
    ⟨⟨5, rfl⟩, ⟨30, rfl⟩, ⟨1, rfl⟩⟩ ?_).mpr ?_).1
  · rintro incident hincident
    cases hincident
    rfl
  · rintro ⟨-, r, hr, -, negative, hnegative⟩
    cases hr
    revert hnegative
    cases negative <;> decide

/-- Not every refusal is turned into a failure of a known kind. -/
theorem not_isKnown_complete : ¬ ∀ (ask : Chat.Request → Effect Unit (Option String))
    (prompt : String) (b : Breaker), b.settings.AreNumbers →
    (∀ incident, (ask (.ofPrompt "" prompt) ()).1 = .error incident →
      incident.isInterruption = false) →
    IsKnown (complete ask (fun _ => 0) "" prompt b ()).1 := by
  intro hall
  have hends : (⟨.rateLimit, "slow down", [("retry-after", "inf")]⟩ : Refusal).IsEndless :=
    ⟨rfl, false, by decide⟩
  have hlimits : (({ settings := {} } : Breaker).settings).AreNumbers :=
    ⟨⟨5, rfl⟩, ⟨30, rfl⟩, ⟨1, rfl⟩⟩
  have hknown := hall (refusing ⟨.rateLimit, "slow down", [("retry-after", "inf")]⟩) "hi"
    { settings := {} } hlimits (by rintro incident hincident; cases hincident; rfl)
  rw [complete_result _ _ _ _ _ hlimits] at hknown
  obtain ⟨f, hf⟩ := hknown
  rw [report_of_isEndless hends] at hf
  cases hf

end Delegate

end PhpMigration
