/-
Calls to a remote model, one after another.

Between two calls the world outside may change in any way, and its clock with it.  What has reached
the model in the course of a call is noted by a model that keeps a list of its requests
(`noted`) and answers as before.

A call that is let through is settled with the breaker once, whatever comes of it: the breaker is
told of a success if there is text in the reply, and of a failure otherwise.  What it comes down to
is that no trial is ever left open.  The trials of a half-open circuit are the calls since it became
half open, that is, those at the end of the session after which it was half open; `Session.Fits` says
that the breaker has counted each of them once as let through and once as a success.  So there are
fewer of them than allowed, since otherwise the last one would have closed the circuit, and the next
call is let through.
-/
import PhpMigration.Proofs.Remote.Delegate

namespace PhpMigration

namespace Breaker

variable {l : Limits} {b : Breaker} {now : Numeral}

/-- A refusal leaves no trace. -/
theorem allow_refused (hs : b.settings = l.settings) (h : (b.allow now).1 = .ok false) :
    (b.allow now).2 = b := by
  cases hc : b.circuit with
  | closed => rw [allow_closed hc]
  | halfOpen =>
      rw [allow_halfOpen hs hc] at h ⊢
      split at h
      · cases h
      · rename_i hfull
        rw [if_neg hfull]
  | opened =>
      rw [allow_opened hs hc] at h ⊢
      split at h
      · rename_i hwait
        rw [if_pos hwait]
      · cases h

end Breaker

theorem Limits.areNumbers (l : Limits) : l.settings.AreNumbers :=
  ⟨⟨_, rfl⟩, ⟨_, rfl⟩, ⟨_, rfl⟩⟩

namespace Delegate

variable {ω : Type}

/-! ### One call -/

/-- There is text in the reply. -/
def hasText : Except Incident (Option String) → Bool
  | .ok content => !(Text.strip (content.getD "")).isEmpty
  | .error _ => false

/-- The breaker is told a success or a failure. -/
def outcome (now : Numeral) (b : Breaker) : Bool → Breaker
  | true => b.succeed.2
  | false => (b.fail now).2

theorem report_isInterruption {incident : Incident} (h : incident.isInterruption = false) :
    (report incident).isInterruption = false := by
  by_cases hends : ∃ r : Refusal, incident = .refusal r ∧ r.IsEndless
  · obtain ⟨r, rfl, hr⟩ := hends
    rw [report_of_isEndless hr]
    rfl
  · obtain ⟨f, hf⟩ := exists_report_eq h fun r hr hendless => hends ⟨r, hr, hendless⟩
    rw [hf]
    rfl

/-- What the breaker is told depends on the text of the reply alone. -/
theorem record_settle {reply : Except Incident (Option String)} {b : Breaker} (now : Numeral)
    (hlimits : b.settings.AreNumbers)
    (hordinary : ∀ incident, reply = .error incident → incident.isInterruption = false) :
    record now b (settle reply) = (.ok (), outcome now b (hasText reply)) := by
  have hfail : b.fail now = (.ok (), (b.fail now).2) := Prod.ext (Breaker.fail_ok hlimits now) rfl
  have hsucceed : b.succeed = (.ok (), b.succeed.2) := Prod.ext (Breaker.succeed_ok hlimits) rfl
  cases reply with
  | error incident =>
      have hreport := report_isInterruption (hordinary incident rfl)
      rw [settle, record, if_neg (by rw [hreport]; decide), hfail]
      rfl
  | ok content =>
      by_cases hblank : (Text.strip (content.getD "")).isEmpty = true
      · rw [settle, if_pos hblank, show hasText (.ok content) = false by simp [hasText, hblank]]
        exact hfail
      · rw [settle, if_neg hblank, show hasText (.ok content) = true by simp [hasText, hblank]]
        exact hsucceed

variable (ask : Chat.Request → Effect ω (Option String)) (clock : ω → Numeral)
  (instructions prompt : String) {b allowed : Breaker} {w : ω}

theorem complete_of_refused (h : b.allow (clock w) = (.ok false, allowed)) :
    complete ask clock instructions prompt b w =
      (.error (.failure (.unavailable serviceName)), allowed, w) := by
  unfold complete
  rw [h]

theorem complete_of_admitted (hlimits : b.settings.AreNumbers)
    (h : b.allow (clock w) = (.ok true, allowed)) {reply : Except Incident (Option String)} {w' : ω}
    (hask : ask (.ofPrompt instructions prompt) w = (reply, w'))
    (hordinary : ∀ incident, reply = .error incident → incident.isInterruption = false) :
    complete ask clock instructions prompt b w =
      (settle reply, outcome (clock w') allowed (hasText reply), w') := by
  have hkept : allowed.settings.AreNumbers := by
    have hsettings := Breaker.allow_settings (clock w) b
    rw [h] at hsettings
    rw [show allowed.settings = b.settings from hsettings]
    exact hlimits
  unfold complete
  rw [h]
  dsimp only
  rw [hask]
  dsimp only
  rw [record_settle (clock w') hkept hordinary]
  rfl

/-! ### Sessions -/

/-- A model, a clock, and the instructions that come before every prompt. -/
structure Client (ω : Type) where
  ask : Chat.Request → Effect ω (Option String)
  clock : ω → Numeral
  instructions : String

/-- The model answers, or fails in some way, but never ends the whole program. -/
def Client.IsOrdinary (c : Client ω) : Prop :=
  ∀ request w incident, (c.ask request w).1 = .error incident → incident.isInterruption = false

/-- A request that has reached a model, and what the model replied. -/
structure Dealing where
  request : Chat.Request
  reply : Except Incident (Option String)

/-- The same model, with a list of the requests that have reached it. -/
def noted (ask : Chat.Request → Effect ω (Option String)) :
    Chat.Request → Effect (ω × List Dealing) (Option String) := fun request (w, dealings) =>
  let (reply, w) := ask request w
  (reply, w, dealings ++ [⟨request, reply⟩])

/-- What reaches the model in the course of a call. -/
def Client.dealings (c : Client ω) (prompt : String) (b : Breaker) (w : ω) : List Dealing :=
  (complete (noted c.ask) (fun noted => c.clock noted.1) c.instructions prompt b (w, [])).2.2.2

/-- A call that was made. -/
structure Call where
  prompt : String
  dealings : List Dealing
  result : Except Incident String
  /-- The circuit after the call. -/
  circuit : Circuit

/-- The call has reached the model once, and there was text in the reply. -/
def Call.HasSucceeded (call : Call) : Prop :=
  ∃ request reply, call.dealings = [⟨request, reply⟩] ∧ hasText reply = true

/-- A breaker, the world outside, and the calls so far, the oldest first. -/
structure Session (ω : Type) where
  breaker : Breaker
  world : ω
  calls : List Call := []

/-- What can happen in a session. -/
inductive SessionEvent (ω : Type) where
  /-- Time passes, and the world changes. -/
  | pass (change : ω → ω)
  | call (prompt : String)

namespace Session

/-- A call is made. -/
def call (c : Client ω) (prompt : String) (s : Session ω) : Session ω :=
  let (result, breaker, world) :=
    complete c.ask c.clock c.instructions prompt s.breaker s.world
  let made := ⟨prompt, c.dealings prompt s.breaker s.world, result, breaker.circuit⟩
  { breaker, world, calls := s.calls ++ [made] }

/-- What happens at an event. -/
def step (c : Client ω) (s : Session ω) : SessionEvent ω → Session ω
  | .pass change => { s with world := change s.world }
  | .call prompt => s.call c prompt

/-- What happens at one event after another. -/
def run (c : Client ω) (s : Session ω) (events : List (SessionEvent ω)) : Session ω :=
  events.foldl (step c) s

/-- A breaker that nobody has asked yet. -/
def start (l : Limits) (w : ω) : Session ω := { breaker := { settings := l.settings }, world := w }

/-- The calls since the circuit became half open, the latest first; none if it is not half open. -/
def trials (s : Session ω) : List Call :=
  s.calls.reverse.takeWhile fun call => call.circuit = .halfOpen

/-- **How a call is settled.** -/
structure IsSettled (l : Limits) (c : Client ω) (prompt : String) (s : Session ω) : Prop where
  /-- The breaker lets it through or refuses it. -/
  answered : (s.breaker.allow (c.clock s.world)).1 = .ok true ∨
    (s.breaker.allow (c.clock s.world)).1 = .ok false
  /-- If it is refused, nothing reaches the model, and neither the breaker nor the world changes. -/
  refused : (s.breaker.allow (c.clock s.world)).1 = .ok false →
    s.call c prompt = { s with calls := s.calls ++
      [⟨prompt, [], .error (.failure (.unavailable serviceName)), s.breaker.circuit⟩] }
  /-- If it is let through, the model is asked once, and then the breaker is told one outcome: a
  success just if there is text in the reply. -/
  admitted : ∀ allowed reply w, s.breaker.allow (c.clock s.world) = (.ok true, allowed) →
    c.ask (.ofPrompt c.instructions prompt) s.world = (reply, w) →
    s.call c prompt =
      { breaker := outcome (c.clock w) allowed (hasText reply)
        world := w
        calls := s.calls ++ [⟨prompt, [⟨.ofPrompt c.instructions prompt, reply⟩], settle reply,
          (outcome (c.clock w) allowed (hasText reply)).circuit⟩] }
  /-- If the circuit is half open then, all trials have succeeded, and one more is let through. -/
  trials : (s.call c prompt).breaker.circuit = .halfOpen →
    (s.call c prompt).breaker.trials = (s.call c prompt).trials.length ∧
      (s.call c prompt).trials.length < l.maxTrials ∧
      (∀ call ∈ (s.call c prompt).trials, call.HasSucceeded) ∧
      ∀ now, ((s.call c prompt).breaker.allow now).1 = .ok true

/-- The counters of the breaker agree with the calls that were made. -/
structure Fits (l : Limits) (s : Session ω) : Prop where
  settings : s.breaker.settings = l.settings
  halfOpen : s.breaker.circuit = .halfOpen →
    s.breaker.trials = s.trials.length ∧ s.breaker.successes = s.trials.length ∧
      s.trials.length < l.maxTrials ∧ ∀ call ∈ s.trials, call.HasSucceeded
  noTrials : s.breaker.circuit ≠ .halfOpen → s.trials = []

variable {l : Limits} {c : Client ω} {s : Session ω} {prompt : String}

theorem fits_start (l : Limits) (w : ω) : (start l w).Fits l where
  settings := rfl
  halfOpen h := by cases h
  noTrials _ := rfl

theorem trials_concat (s : Session ω) (b : Breaker) (w : ω) (made : Call) :
    ({ breaker := b, world := w, calls := s.calls ++ [made] } : Session ω).trials =
      if made.circuit = .halfOpen then made :: s.trials else [] := by
  unfold trials
  rw [List.reverse_append, List.reverse_singleton, List.singleton_append, List.takeWhile_cons]
  simp only [decide_eq_true_eq]

/-! ### What a call does -/

theorem call_of_refused (h : s.Fits l) (hrefused : (s.breaker.allow (c.clock s.world)).1 = .ok false) :
    s.call c prompt = { s with calls := s.calls ++
      [⟨prompt, [], .error (.failure (.unavailable serviceName)), s.breaker.circuit⟩] } := by
  have hallow : s.breaker.allow (c.clock s.world) = (.ok false, s.breaker) :=
    Prod.ext hrefused (Breaker.allow_refused h.settings hrefused)
  have hdealings : c.dealings prompt s.breaker s.world = [] := by
    unfold Client.dealings
    rw [complete_of_refused (noted c.ask) (fun noted => c.clock noted.1) _ _ (w := (s.world, []))
      hallow]
  unfold call
  rw [complete_of_refused _ _ _ _ hallow, hdealings]

theorem call_of_admitted (hc : c.IsOrdinary) (h : s.Fits l) {allowed : Breaker}
    {reply : Except Incident (Option String)} {w : ω}
    (hallow : s.breaker.allow (c.clock s.world) = (.ok true, allowed))
    (hask : c.ask (.ofPrompt c.instructions prompt) s.world = (reply, w)) :
    s.call c prompt =
      { breaker := outcome (c.clock w) allowed (hasText reply)
        world := w
        calls := s.calls ++ [⟨prompt, [⟨.ofPrompt c.instructions prompt, reply⟩], settle reply,
          (outcome (c.clock w) allowed (hasText reply)).circuit⟩] } := by
  have hlimits : s.breaker.settings.AreNumbers := by
    rw [h.settings]
    exact l.areNumbers
  have hordinary : ∀ incident, reply = .error incident → incident.isInterruption = false := by
    intro incident hincident
    refine hc (.ofPrompt c.instructions prompt) s.world incident ?_
    rw [hask, hincident]
  have hnoted : noted c.ask (.ofPrompt c.instructions prompt) (s.world, []) =
      (reply, w, [⟨.ofPrompt c.instructions prompt, reply⟩]) := by
    rw [show noted c.ask (.ofPrompt c.instructions prompt) (s.world, []) =
      ((c.ask (.ofPrompt c.instructions prompt) s.world).1,
        (c.ask (.ofPrompt c.instructions prompt) s.world).2,
        [⟨.ofPrompt c.instructions prompt,
          (c.ask (.ofPrompt c.instructions prompt) s.world).1⟩]) from rfl, hask]
  have hdealings : c.dealings prompt s.breaker s.world =
      [⟨.ofPrompt c.instructions prompt, reply⟩] := by
    unfold Client.dealings
    rw [complete_of_admitted (noted c.ask) (fun noted => c.clock noted.1) _ _ (w := (s.world, []))
      hlimits hallow hnoted hordinary]
  unfold call
  rw [complete_of_admitted _ _ _ _ hlimits hallow hask hordinary, hdealings]

theorem Fits.answered (h : s.Fits l) (now : Numeral) :
    (s.breaker.allow now).1 = .ok true ∨ (s.breaker.allow now).1 = .ok false := by
  have hlimits : s.breaker.settings.AreNumbers := by
    rw [h.settings]
    exact l.areNumbers
  obtain ⟨answer, hanswer⟩ := Breaker.allow_ok hlimits now
  rw [hanswer]
  cases answer with
  | true => exact .inl rfl
  | false => exact .inr rfl

/-- While the circuit is half open, another trial is let through. -/
theorem Fits.allow_halfOpen (h : s.Fits l) (hc : s.breaker.circuit = .halfOpen) (now : Numeral) :
    s.breaker.allow now = (.ok true, { s.breaker with trials := s.breaker.trials + 1 }) := by
  obtain ⟨htrials, -, hfew, -⟩ := h.halfOpen hc
  rw [Breaker.allow_halfOpen h.settings hc, if_pos (by omega)]

variable {b allowed : Breaker} {w : ω} {made : Call}

/-- A call after which the circuit is not half open. -/
theorem fits_of_ne (hs : b.settings = l.settings) (hb : b.circuit ≠ .halfOpen)
    (hmade : made.circuit = b.circuit) :
    ({ breaker := b, world := w, calls := s.calls ++ [made] } : Session ω).Fits l where
  settings := hs
  halfOpen ho := absurd ho hb
  noTrials _ := by rw [trials_concat, hmade, if_neg hb]

/-- A call that is let through a closed circuit. -/
theorem fits_of_closed (hs : b.settings = l.settings) (hb : b.circuit = .closed) (now : Numeral)
    (success : Bool) (hmade : made.circuit = (outcome now b success).circuit) :
    ({ breaker := outcome now b success, world := w, calls := s.calls ++ [made] } :
      Session ω).Fits l := by
  cases success with
  | true =>
      rw [outcome, Breaker.succeed_of_ne (by rw [hb]; exact nofun)] at hmade ⊢
      exact fits_of_ne hs (by rw [hb]; exact nofun) hmade
  | false =>
      rw [outcome, Breaker.fail_closed hs hb] at hmade ⊢
      split at hmade
      · rename_i hmore
        rw [if_pos hmore]
        exact fits_of_ne hs (by rw [hb]; exact nofun) hmade
      · rename_i hmore
        rw [if_neg hmore]
        exact fits_of_ne hs nofun hmade

/-- A trial.  Unless it is the last one, its success leaves the circuit half open, and its failure
never does. -/
theorem fits_of_halfOpen (hs : b.settings = l.settings) (hb : b.circuit = .halfOpen)
    (htrials : b.trials = s.trials.length + 1) (hsuccesses : b.successes = s.trials.length)
    (hall : ∀ call ∈ s.trials, call.HasSucceeded) (now : Numeral) (success : Bool)
    (hmade : made.circuit = (outcome now b success).circuit)
    (hsucceeded : success = true → made.HasSucceeded) :
    ({ breaker := outcome now b success, world := w, calls := s.calls ++ [made] } :
      Session ω).Fits l := by
  cases success with
  | false =>
      rw [outcome, Breaker.fail_halfOpen hb] at hmade ⊢
      exact fits_of_ne hs nofun hmade
  | true =>
      rw [outcome, Breaker.succeed_halfOpen hs hb] at hmade ⊢
      split at hmade
      · rename_i hmore
        rw [if_pos hmore]
        refine
          { settings := hs
            halfOpen := fun _ => ?_
            noTrials := fun ho => absurd hb ho }
        rw [trials_concat, hmade, if_pos hb]
        exact ⟨htrials, congrArg (· + 1) hsuccesses, by simpa [hsuccesses] using hmore,
          List.forall_mem_cons.mpr ⟨hsucceeded rfl, hall⟩⟩
      · rename_i hmore
        rw [if_neg hmore]
        exact fits_of_ne hs nofun hmade

/-- Whatever becomes of a call. -/
theorem Fits.call (hc : c.IsOrdinary) (h : s.Fits l) (prompt : String) :
    (s.call c prompt).Fits l := by
  rcases h.answered (c.clock s.world) with hadmitted | hrefused
  · obtain ⟨reply, w, hask⟩ : ∃ reply w, c.ask (.ofPrompt c.instructions prompt) s.world =
        (reply, w) := ⟨_, _, rfl⟩
    obtain ⟨allowed, hallow⟩ : ∃ allowed, s.breaker.allow (c.clock s.world) = (.ok true, allowed) :=
      ⟨_, Prod.ext hadmitted rfl⟩
    rw [call_of_admitted hc h hallow hask]
    have hsucceeded (hreply : hasText reply = true) : Call.HasSucceeded
        ⟨prompt, [⟨.ofPrompt c.instructions prompt, reply⟩], settle reply,
          (outcome (c.clock w) allowed (hasText reply)).circuit⟩ := ⟨_, _, rfl, hreply⟩
    cases hcircuit : s.breaker.circuit with
    | closed =>
        rw [Breaker.allow_closed hcircuit] at hallow
        obtain ⟨-, rfl⟩ := Prod.mk.inj hallow
        exact fits_of_closed h.settings hcircuit _ _ rfl
    | halfOpen =>
        obtain ⟨htrials, hsuccesses, -, hall⟩ := h.halfOpen hcircuit
        rw [h.allow_halfOpen hcircuit] at hallow
        obtain ⟨-, rfl⟩ := Prod.mk.inj hallow
        exact fits_of_halfOpen (b := { s.breaker with trials := s.breaker.trials + 1 }) h.settings
          hcircuit (congrArg (· + 1) htrials) hsuccesses hall _ _ rfl hsucceeded
    | opened =>
        have hnone : s.trials = [] := h.noTrials (by rw [hcircuit]; exact nofun)
        rw [Breaker.allow_opened h.settings hcircuit] at hallow
        split at hallow
        · cases hallow
        · obtain ⟨-, rfl⟩ := Prod.mk.inj hallow
          exact fits_of_halfOpen
            (b := { s.breaker with circuit := .halfOpen, trials := 1, successes := 0 }) h.settings
            rfl (by rw [hnone]; rfl) (by rw [hnone]; rfl) (by rw [hnone]; exact nofun) _ _ rfl
            hsucceeded
  · rw [call_of_refused h hrefused]
    by_cases hopen : s.breaker.circuit = .halfOpen
    · rw [h.allow_halfOpen hopen] at hrefused
      cases hrefused
    · exact fits_of_ne h.settings hopen rfl

theorem Fits.step (hc : c.IsOrdinary) (h : s.Fits l) (e : SessionEvent ω) :
    (s.step c e).Fits l := by
  cases e with
  | pass change => exact ⟨h.settings, h.halfOpen, h.noTrials⟩
  | call prompt => exact h.call hc prompt

/-- The counters agree with the calls after any events. -/
theorem fits_run (hc : c.IsOrdinary) (l : Limits) (w : ω) (events : List (SessionEvent ω)) :
    ((start l w).run c events).Fits l := by
  suffices hall : ∀ s : Session ω, s.Fits l → (s.run c events).Fits l from hall _ (fits_start l w)
  induction events with
  | nil => exact fun s h => h
  | cons e rest ih => exact fun s h => ih _ (h.step hc e)

theorem Fits.isSettled (hc : c.IsOrdinary) (h : s.Fits l) (prompt : String) :
    s.IsSettled l c prompt where
  answered := h.answered _
  refused := call_of_refused h
  admitted _ _ _ := call_of_admitted hc h
  trials hopen := by
    have hafter := h.call hc prompt
    obtain ⟨htrials, -, hfew, hall⟩ := hafter.halfOpen hopen
    exact ⟨htrials, hfew, hall, fun now => by rw [hafter.allow_halfOpen hopen]⟩

/-- **Every call is settled with the breaker once, and no trial is left open**: for all limits, after
any calls, at whatever moments and with whatever replies.  The model must not end the whole
program. -/
theorem isSettled_run (l : Limits) (c : Client ω) (hc : c.IsOrdinary) (w : ω)
    (events : List (SessionEvent ω)) (prompt : String) :
    ((start l w).run c events).IsSettled l c prompt :=
  (fits_run hc l w events).isSettled hc prompt

/-- A model that fails once and then replies, at a time that is counted in seconds. -/
def recovering : Client (Nat × Nat) where
  ask _ := fun (now, calls) =>
    (if calls = 0 then .error (.other "TimeoutError" "too slow") else .ok (some " <?js "),
      now, calls + 1)
  clock w := .int w.1
  instructions := ""

/-- A call fails and opens the circuit; after ten seconds one trial succeeds, and another one is let
through. -/
theorem isSettled_recovering :
    ((start ⟨1, 10, 2, by decide, by decide⟩ (0, 0)).run recovering
      [.call "a", .pass fun w => (w.1 + 10, w.2)]).IsSettled ⟨1, 10, 2, by decide, by decide⟩
      recovering "b" ∧
    (((start ⟨1, 10, 2, by decide, by decide⟩ (0, 0)).run recovering
      [.call "a", .pass fun w => (w.1 + 10, w.2)]).call recovering "b").breaker.circuit =
        .halfOpen := by
  refine ⟨isSettled_run _ recovering ?_ (0, 0) _ "b", by decide⟩
  rintro request ⟨now, calls⟩ incident hincident
  cases calls with
  | zero =>
      obtain rfl := Except.error.inj hincident
      decide
  | succ calls => cases hincident

end Session

end Delegate

end PhpMigration
