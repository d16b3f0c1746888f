/-
Which model is chosen, and on which verdicts.

A router keeps what it has found out about its models and drops all of it together: when a service
is set up by hand, and when the time since it was last dropped is up, which is looked at before
every single verdict, also in the middle of a chain.  So one time stands for verdicts that were
obtained at many times, by calls for many purposes, and how old a verdict is that is used is a
matter of all that has happened before.

What happens is written down, the newest event first: that the verdicts are dropped, that the server
of a model has answered, that a verdict is used.  An event is justified by the events before it
(`Event.IsJustified`), and `Knows` is what the router has to know of them for the next one to be
justified: its verdicts are those that were obtained since the last reset, and none of them is older
than the time at which verdicts were last dropped.  How long ago that was is a rounded difference;
it can be relied on because that time is zero or beyond the limit itself.
-/
import PhpMigration.Proofs.Number.Difference
import PhpMigration.Proofs.Remote.Routes

namespace PhpMigration

/-- The exact value of a number that is a finite double. -/
def Numeral.value (x : Numeral) : ℚ := x.toDouble.value

namespace Outside

variable {ω : Type}

/-- The exact time on the clock. -/
def seconds (outside : Outside ω) (w : ω) : ℚ := (outside.clock w).value

/-- The server of a model answers whether it has the model. -/
inductive Answers (outside : Outside ω) (m : Model) (before : Lines ω) (verdict : Bool) :
    Lines ω → Prop
  | byHand {name : String} {world : ω} (hserver : m.server = .byHand name)
      (h : outside.check name m.id before.world = (.ok verdict, world)) :
      Answers outside m before verdict { before with world }
  | endpoint {e : Endpoint} {after : Lines ω} (hserver : m.server = .endpoint e)
      (h : e.check outside.toWire before = (.ok verdict, after)) :
      Answers outside m before verdict after

/-- One server after the other answers whether it has its model, and nothing else happens. -/
inductive AnswersAll (outside : Outside ω) : Lines ω → List (Model × Bool) → Lines ω → Prop
  | none {lines : Lines ω} : AnswersAll outside lines [] lines
  | next {before between after : Lines ω} {m : Model} {verdict : Bool} {rest : List (Model × Bool)}
      (h : outside.Answers m before verdict between)
      (hrest : AnswersAll outside between rest after) :
      AnswersAll outside before ((m, verdict) :: rest) after

theorem AnswersAll.trans {outside : Outside ω} {before between after : Lines ω}
    {asked more : List (Model × Bool)} (h : outside.AnswersAll before asked between)
    (hmore : outside.AnswersAll between more after) :
    outside.AnswersAll before (asked ++ more) after := by
  induction h with
  | none => exact hmore
  | next hanswer _ ih => exact .next hanswer (ih hmore)

/-- The clock shows finite doubles, and where models are checked, every check of a model that is
served is answered, and the clock does not go back during it. -/
structure IsOrderly (outside : Outside ω) (routes : Routes) : Prop where
  reads : ∀ w, ∃ d : Double, outside.clock w = .double d ∧ d.IsFinite
  answers : routes.checks = true →
    ∀ byHand name m, routes.Builds byHand name (some m) → ∀ before, ∃ verdict after,
      outside.Answers m before verdict after ∧
        outside.seconds before.world ≤ outside.seconds after.world

end Outside

namespace Router

variable {ω : Type}

/-! ### What happens -/

/-- What happens to the verdicts of a router, with the time on the clock. -/
inductive Event where
  /-- All verdicts are dropped because their time is up. -/
  | dropped
  /-- All verdicts are dropped because a service is set up by hand. -/
  | registered (name : String)
  /-- The server of a model has answered whether it has the model. -/
  | checked (m : Model) (verdict : Bool) (time : Numeral)
  /-- It is decided by a verdict whether a model is chosen. -/
  | used (m : Model) (verdict : Bool) (time : Numeral)

/-- After the event no verdicts are left. -/
def Event.isReset : Event → Bool
  | .dropped | .registered _ => true
  | .checked .. | .used .. => false

/-- The verdict that is used. -/
def Event.used? : Event → Option (Model × Bool)
  | .used m verdict _ => some (m, verdict)
  | _ => none

/-- The verdict that the server of a model has given. -/
def Event.checked? : Event → Option (Model × Bool)
  | .checked m verdict _ => some (m, verdict)
  | _ => none

/-- The events since the last reset. -/
def recent (log : List Event) : List Event := log.takeWhile fun event => !event.isReset

/-- The verdicts that were used, the oldest first. -/
def verdictsUsed (log : List Event) : List (Model × Bool) := (log.filterMap Event.used?).reverse

/-- The checks that were made, the oldest first. -/
def checksMade (log : List Event) : List (Model × Bool) := (log.filterMap Event.checked?).reverse

variable (outside : Outside ω)

/-- The log after verdicts whose time is up have been dropped. -/
def refreshLog (now : Numeral) (r : Router ω) (log : List Event) : List Event :=
  if r.isStale now then .dropped :: log else log

/-- The log after it has been found out whether a model is available.  The server is asked only if
models are checked at all and no verdict is known. -/
def inquireLog (m : Model) (r : Router ω) (log : List Event) : List Event :=
  let now := outside.clock r.lines.world
  let log := r.refreshLog now log
  match r.isAvailable outside m with
  | (.error _, _) => log
  | (.ok verdict, after) =>
    let time := outside.clock after.lines.world
    if r.routes.checks && !Table.has (r.refresh now).verdicts m.name then
      .used m verdict time :: .checked m verdict time :: log
    else .used m verdict time :: log

/-- The log after the first available model has been looked for. -/
def walkLog : List Model → Router ω → List Event → List Event
  | [], _, log => log
  | m :: rest, r, log =>
    match r.isAvailable outside m with
    | (.ok false, after) => walkLog rest after (r.inquireLog outside m log)
    | _ => r.inquireLog outside m log

/-- The log after a model has been chosen. -/
def resolveLog (purpose : String) (r : Router ω) (log : List Event) : List Event :=
  match r.routes.candidates r.byHand purpose with
  | .error _ => log
  | .ok candidates => r.walkLog outside candidates log

/-- What a router can come to from a start, with all that has happened. -/
inductive History (start : Router ω) : Router ω → List Event → Prop
  | start : History start start []
  /-- The world changes in any way, but the clock does not go back. -/
  | pass {r log} (h : History start r log) (lines : Lines ω)
      (hclock : outside.seconds r.lines.world ≤ outside.seconds lines.world) :
      History start { r with lines } log
  | register {r log} (h : History start r log) (name : String) :
      History start (r.register name) (.registered name :: log)
  | resolve {r log} (h : History start r log) (purpose : String) :
      History start (r.choose outside purpose).2 (r.resolveLog outside purpose log)

/-! ### What is owed -/

/-- An event is justified by the events before it.  A model is checked that has not been checked
since the last reset, and the verdict is what its server has answered.  A verdict is used that the
server of the model has given since the last reset, and within the time for which verdicts are kept;
if models are not checked, it says that the model is available. -/
def Event.IsJustified (routes : Routes) (past : List Event) : Event → Prop
  | .dropped | .registered _ => True
  | .checked m verdict time => routes.checks = true ∧
      (∃ before after, outside.Answers m before verdict after ∧
        time = outside.clock after.world) ∧
      ∀ other verdict time, .checked other verdict time ∈ recent past → other.name ≠ m.name
  | .used m verdict time =>
      if routes.checks then
        ∃ obtained, .checked m verdict obtained ∈ recent past ∧ obtained.value ≤ time.value ∧
          routes.patience.AtLeast (time.value - obtained.value)
      else verdict = true

/-- Every event is justified by the events before it. -/
def IsSound (routes : Routes) (log : List Event) : Prop :=
  ∀ event past, event :: past <:+ log → event.IsJustified outside routes past

/-- What has been added to a log: some verdicts have been used, some servers were asked for theirs,
and nothing else has happened to the lines meanwhile. -/
structure Adds (log : List Event) (before : Lines ω) (used asked : List (Model × Bool))
    (log' : List Event) (after : Lines ω) : Prop where
  verdicts : verdictsUsed log' = verdictsUsed log ++ used
  checks : checksMade log' = checksMade log ++ asked
  answers : outside.AnswersAll before asked after

/-- What is chosen among candidates after some verdicts: the first one that is available, and if
none is, the first one. -/
def IsChoice (candidates : List Model) (verdicts : List (Model × Bool)) (chosen : Option Model) :
    Prop :=
  (∃ before m after, candidates = before ++ m :: after ∧
    verdicts = before.map (·, false) ++ [(m, true)] ∧ chosen = some m) ∨
  (verdicts = candidates.map (·, false) ∧ chosen = candidates.head?)

variable {outside}

theorem Adds.trans {log log' log'' : List Event} {before between after : Lines ω}
    {used used' asked asked' : List (Model × Bool)}
    (h : Adds outside log before used asked log' between)
    (h' : Adds outside log' between used' asked' log'' after) :
    Adds outside log before (used ++ used') (asked ++ asked') log'' after where
  verdicts := by rw [h'.verdicts, h.verdicts, List.append_assoc]
  checks := by rw [h'.checks, h.checks, List.append_assoc]
  answers := h.answers.trans h'.answers

theorem IsSound.cons {routes : Routes} {log : List Event} {event : Event}
    (h : IsSound outside routes log) (hevent : event.IsJustified outside routes log) :
    IsSound outside routes (event :: log) := by
  intro e past hsuffix
  rcases List.suffix_cons_iff.mp hsuffix with heq | hsuffix
  · cases heq
    exact hevent
  · exact h e past hsuffix

theorem checked_mem_recent_used {log : List Event} {m other : Model} {verdict verdict' : Bool}
    {time time' : Numeral} : .checked other verdict' time' ∈ recent (.used m verdict time :: log) ↔
      .checked other verdict' time' ∈ recent log := by
  unfold recent
  simp [Event.isReset]

theorem checked_mem_recent_checked {log : List Event} {m other : Model} {verdict verdict' : Bool}
    {time time' : Numeral} :
    .checked other verdict' time' ∈ recent (.checked m verdict time :: log) ↔
      (other = m ∧ verdict' = verdict ∧ time' = time) ∨
        .checked other verdict' time' ∈ recent log := by
  unfold recent
  simp [Event.isReset]

/-! ### What the router knows -/

variable {routes : Routes} {r : Router ω} {log : List Event}

/-- What a router knows of what has happened. -/
structure Knows (outside : Outside ω) (routes : Routes) (r : Router ω) (log : List Event) :
    Prop where
  routes_eq : r.routes = routes
  sound : IsSound outside routes log
  /-- The services that are known are those that were set up by hand. -/
  byHand : ∀ name, name ∈ r.byHand ↔ .registered name ∈ log
  /-- The time at which verdicts were dropped was read off the clock beyond the limit, or it is
  zero. -/
  dropped : ∃ d : Double, r.droppedAt = .double d ∧ d.IsFinite ∧ 0 ≤ d.value ∧
    (d.value = 0 ∨ ¬ routes.patience.AtLeast d.value)
  passed : r.droppedAt.value ≤ outside.seconds r.lines.world
  /-- What has been checked since the last reset is known, and is no older than the verdicts that
  were dropped. -/
  checked : ∀ m verdict time, .checked m verdict time ∈ recent log →
    r.verdicts.find? m.name = some verdict ∧
      routes.Builds r.byHand (.text m.name) (some m) ∧
      r.droppedAt.value ≤ time.value ∧ time.value ≤ outside.seconds r.lines.world
  /-- Nothing else is known. -/
  known : ∀ name verdict, r.verdicts.find? name = some verdict →
    if routes.checks then ∃ m time, m.name = name ∧ .checked m verdict time ∈ recent log
    else verdict = true

namespace Knows

theorem start (lines : Lines ω)
    (hzero : 0 ≤ outside.seconds lines.world) : Knows outside routes { routes, lines } [] where
  routes_eq := rfl
  sound := fun event past h => by
    have hnil := List.suffix_nil.mp h
    cases hnil
  byHand := fun _ => ⟨nofun, nofun⟩
  dropped := ⟨_, rfl, Double.isFinite_ofInt_zero, Double.value_ofInt_zero.ge,
    .inl Double.value_ofInt_zero⟩
  passed := Double.value_ofInt_zero.le.trans hzero
  checked := fun _ _ _ h => by cases h
  known := fun _ _ h => by cases h

theorem pass (h : Knows outside routes r log) {lines : Lines ω}
    (hclock : outside.seconds r.lines.world ≤ outside.seconds lines.world) :
    Knows outside routes { r with lines } log where
  routes_eq := h.routes_eq
  sound := h.sound
  byHand := h.byHand
  dropped := h.dropped
  passed := h.passed.trans hclock
  checked := fun m verdict time hmem =>
    let ⟨hfind, hmodel, hafter, hbefore⟩ := h.checked m verdict time hmem
    ⟨hfind, hmodel, hafter, hbefore.trans hclock⟩
  known := h.known

theorem register (h : Knows outside routes r log) (name : String) :
    Knows outside routes (r.register name) (.registered name :: log) where
  routes_eq := h.routes_eq
  sound := h.sound.cons trivial
  byHand := fun other => by
    have hmem : other ∈ (r.register name).byHand ↔ other = name ∨ other ∈ r.byHand := by
      unfold Router.register
      dsimp only
      split
      · rename_i hknown
        rw [List.contains_iff_mem] at hknown
        exact ⟨.inr, fun h => h.elim (fun heq => heq ▸ hknown) id⟩
      · rw [List.mem_append, List.mem_singleton, or_comm]
    rw [hmem, h.byHand, List.mem_cons, Event.registered.injEq]
  dropped := h.dropped
  passed := h.passed
  checked := fun _ _ _ hmem => by cases hmem
  known := fun _ _ hfind => by cases hfind

/-- Before a verdict is used those whose time is up are dropped, so the others are not too old. -/
theorem refresh (h : Knows outside routes r log) (hworld : outside.IsOrderly routes)
    (hpatience : routes.patience.AtLeast 0) :
    Knows outside routes (r.refresh (outside.clock r.lines.world))
        (r.refreshLog (outside.clock r.lines.world) log) ∧
      routes.patience.AtLeast (outside.seconds r.lines.world -
        (r.refresh (outside.clock r.lines.world)).droppedAt.value) := by
  obtain ⟨now, hnow, hfinite⟩ := hworld.reads r.lines.world
  obtain ⟨d, hd, hdfinite, hdpos, hbeyond⟩ := h.dropped
  have hseconds : outside.seconds r.lines.world = now.value := by
    rw [Outside.seconds, hnow]
    rfl
  have hpassed : d.value ≤ now.value := by
    have hle := h.passed
    rw [hseconds, hd] at hle
    exact hle
  have hstale : r.isStale (outside.clock r.lines.world) = routes.patience.lt (now.sub d) := by
    rw [isStale, hnow, hd, h.routes_eq]
    rfl
  unfold Router.refresh refreshLog
  rw [hstale]
  cases hlate : routes.patience.lt (now.sub d) with
  | true =>
      have hbeyond := Double.not_atLeast_of_lt_sub hfinite hdfinite hdpos hpassed hlate
      refine ⟨⟨h.routes_eq, h.sound.cons trivial, fun name => by simpa using h.byHand name,
        ⟨now, hnow, hfinite, hdpos.trans hpassed, .inr hbeyond⟩, le_rfl, ?_, ?_⟩, ?_⟩
      · intro _ _ _ hmem
        cases hmem
      · intro _ _ hfind
        cases hfind
      · show routes.patience.AtLeast (outside.seconds r.lines.world - outside.seconds r.lines.world)
        rw [sub_self]
        exact hpatience
  | false =>
      have hkept := Double.atLeast_of_lt_sub_eq_false hfinite hdfinite hdpos hpassed
        hpatience.ne_nan hbeyond hlate
      refine ⟨h, ?_⟩
      rw [hseconds]
      show routes.patience.AtLeast (now.value - r.droppedAt.value)
      rw [hd]
      exact hkept

/-- A verdict that is known may be used while it is not too old. -/
theorem isJustified (h : Knows outside routes r log) {name : Value} {m : Model} {verdict : Bool}
    (hm : routes.Builds r.byHand name (some m))
    (hfind : r.verdicts.find? m.name = some verdict)
    (hfresh : routes.patience.AtLeast (outside.seconds r.lines.world - r.droppedAt.value)) :
    (Event.used m verdict (outside.clock r.lines.world)).IsJustified outside routes log := by
  have hknown := h.known m.name verdict hfind
  by_cases hchecks : routes.checks = true
  · rw [if_pos hchecks] at hknown
    obtain ⟨other, obtained, hname, hchecked⟩ := hknown
    obtain ⟨-, hother, hafter, hbefore⟩ := h.checked other verdict obtained hchecked
    -- the model of this name is the one that was checked
    rw [hname, ← hm.name_eq] at hother
    cases hm.unique hother
    exact (if_pos hchecks).mpr
      ⟨obtained, hchecked, hbefore, hfresh.mono (sub_le_sub_left hafter _)⟩
  · rw [if_neg hchecks] at hknown
    exact (if_neg hchecks).mpr hknown

theorem use (h : Knows outside routes r log) {m : Model} {verdict : Bool} {time : Numeral}
    (hjustified : (Event.used m verdict time).IsJustified outside routes log) :
    Knows outside routes r (.used m verdict time :: log) := by
  refine ⟨h.routes_eq, h.sound.cons hjustified, fun name => by simpa using h.byHand name,
    h.dropped, h.passed, ?_, ?_⟩
  · intro other verdict' time' hmem
    exact h.checked other verdict' time' (checked_mem_recent_used.mp hmem)
  · simp only [checked_mem_recent_used]
    exact h.known

/-- A new verdict takes the place of no other one. -/
theorem find?_set (h : Knows outside routes r log) {name : String}
    (hfind : r.verdicts.find? name = none) (value : Bool) {m : Model} {verdict : Bool}
    {time : Numeral} (hmem : .checked m verdict time ∈ recent log) :
    m.name ≠ name ∧ (r.verdicts.set name value).find? m.name = some verdict := by
  have hknown := (h.checked m verdict time hmem).1
  have hname : m.name ≠ name := by
    rintro rfl
    rw [hfind] at hknown
    cases hknown
  rw [Table.find?_set, if_neg hname]
  exact ⟨hname, hknown⟩

/-- A check is noted under the name of the model. -/
theorem check (h : Knows outside routes r log) (hchecks : routes.checks = true) {name : Value}
    {m : Model} (hm : routes.Builds r.byHand name (some m))
    (hfind : r.verdicts.find? m.name = none) {verdict : Bool} {lines : Lines ω}
    (hanswers : outside.Answers m r.lines verdict lines)
    (hclock : outside.seconds r.lines.world ≤ outside.seconds lines.world) :
    Knows outside routes { r with lines, verdicts := r.verdicts.set m.name verdict }
      (.checked m verdict (outside.clock lines.world) :: log) := by
  have hothers : ∀ other verdict' time, .checked other verdict' time ∈ recent log →
      other.name ≠ m.name ∧ (r.verdicts.set m.name verdict).find? other.name = some verdict' :=
    fun _ _ _ hmem => h.find?_set hfind verdict hmem
  refine ⟨h.routes_eq,
    h.sound.cons ⟨hchecks, ⟨_, _, hanswers, rfl⟩,
      fun other verdict' time hmem => (hothers other verdict' time hmem).1⟩,
    fun name => by simpa using h.byHand name, h.dropped, h.passed.trans hclock, ?_, ?_⟩
  · intro other verdict' time hmem
    rcases checked_mem_recent_checked.mp hmem with ⟨rfl, rfl, rfl⟩ | hmem
    · refine ⟨?_, ?_, h.passed.trans hclock, le_rfl⟩
      · rw [Table.find?_set, if_pos rfl]
      · rw [← hm.name_eq]
        exact hm
    · obtain ⟨-, hmodel, hafter, hbefore⟩ := h.checked other verdict' time hmem
      exact ⟨(hothers other verdict' time hmem).2, hmodel, hafter, hbefore.trans hclock⟩
  · intro other verdict' hfound
    rw [if_pos hchecks]
    rw [Table.find?_set] at hfound
    by_cases hname : other = m.name
    · rw [if_pos hname] at hfound
      cases hfound
      exact ⟨m, _, hname.symm, checked_mem_recent_checked.mpr (.inl ⟨rfl, rfl, rfl⟩)⟩
    · rw [if_neg hname] at hfound
      have hknown := h.known other verdict' hfound
      rw [if_pos hchecks] at hknown
      obtain ⟨m', time, hname, hmem⟩ := hknown
      exact ⟨m', time, hname, checked_mem_recent_checked.mpr (.inr hmem)⟩

/-- Where models are not checked, each is held to be available. -/
theorem suppose (h : Knows outside routes r log) (hchecks : routes.checks = false) {name : String}
    (hfind : r.verdicts.find? name = none) :
    Knows outside routes { r with verdicts := r.verdicts.set name true } log := by
  refine ⟨h.routes_eq, h.sound, h.byHand, h.dropped, h.passed, ?_, ?_⟩
  · intro m verdict time hmem
    obtain ⟨-, hmodel, hafter, hbefore⟩ := h.checked m verdict time hmem
    exact ⟨(h.find?_set hfind true hmem).2, hmodel, hafter, hbefore⟩
  · intro other verdict hfound
    rw [Table.find?_set] at hfound
    by_cases hname : other = name
    · rw [if_pos hname] at hfound
      cases hfound
      rw [if_neg (Bool.eq_false_iff.mp hchecks)]
    · rw [if_neg hname] at hfound
      exact h.known other verdict hfound

end Knows

/-! ### A step, a chain, a choice -/

@[simp] theorem refresh_byHand (now : Numeral) (r : Router ω) :
    (r.refresh now).byHand = r.byHand := by
  unfold refresh
  split <;> rfl

@[simp] theorem refresh_lines (now : Numeral) (r : Router ω) : (r.refresh now).lines = r.lines := by
  unfold refresh
  split <;> rfl

/-- A check changes nothing but the world and the connections. -/
theorem checkServer_of_answers {m : Model} {verdict : Bool} {after : Lines ω}
    (h : outside.Answers m r.lines verdict after) :
    r.checkServer outside m = (.ok verdict, { r with lines := after }) := by
  unfold checkServer
  cases h with
  | byHand hserver h | endpoint hserver h => simp only [hserver, h]

@[simp] theorem verdictsUsed_used (m : Model) (verdict : Bool) (time : Numeral) (log : List Event) :
    verdictsUsed (.used m verdict time :: log) = verdictsUsed log ++ [(m, verdict)] := by
  simp [verdictsUsed, Event.used?]

@[simp] theorem verdictsUsed_checked (m : Model) (verdict : Bool) (time : Numeral)
    (log : List Event) : verdictsUsed (.checked m verdict time :: log) = verdictsUsed log := rfl

@[simp] theorem checksMade_used (m : Model) (verdict : Bool) (time : Numeral) (log : List Event) :
    checksMade (.used m verdict time :: log) = checksMade log := rfl

@[simp] theorem checksMade_checked (m : Model) (verdict : Bool) (time : Numeral)
    (log : List Event) :
    checksMade (.checked m verdict time :: log) = checksMade log ++ [(m, verdict)] := by
  simp [checksMade, Event.checked?]

@[simp] theorem checksMade_refreshLog (now : Numeral) (r : Router ω) (log : List Event) :
    checksMade (r.refreshLog now log) = checksMade log := by
  unfold refreshLog
  split <;> rfl

@[simp] theorem verdictsUsed_refreshLog (now : Numeral) (r : Router ω) (log : List Event) :
    verdictsUsed (r.refreshLog now log) = verdictsUsed log := by
  unfold refreshLog
  split <;> rfl

theorem isAvailable_of_some {m : Model} {verdict : Bool}
    (hfind : (r.refresh (outside.clock r.lines.world)).verdicts.find? m.name = some verdict) :
    r.isAvailable outside m = (.ok verdict, r.refresh (outside.clock r.lines.world)) := by
  unfold isAvailable
  simp only [hfind]

theorem isAvailable_of_none {m : Model} {verdict : Bool} {after : Router ω}
    (hfind : (r.refresh (outside.clock r.lines.world)).verdicts.find? m.name = none)
    (hjudge : (r.refresh (outside.clock r.lines.world)).judge outside m = (.ok verdict, after)) :
    r.isAvailable outside m =
      (.ok verdict, { after with verdicts := after.verdicts.set m.name verdict }) := by
  unfold isAvailable
  simp only [hfind, hjudge]

/-- **What becomes of a router that is asked whether a model is available.** -/
theorem Knows.inquire (h : Knows outside routes r log) (hworld : outside.IsOrderly routes)
    (hpatience : routes.patience.AtLeast 0) {name : Value} {m : Model}
    (hm : routes.Builds r.byHand name (some m)) : ∃ verdict after asked,
      r.isAvailable outside m = (.ok verdict, after) ∧ after.byHand = r.byHand ∧
        Knows outside routes after (r.inquireLog outside m log) ∧
        Adds outside log r.lines [(m, verdict)] asked (r.inquireLog outside m log) after.lines := by
  obtain ⟨hfresh, hage⟩ := h.refresh hworld hpatience
  have hbyHand := refresh_byHand (outside.clock r.lines.world) r
  have hlines := refresh_lines (outside.clock r.lines.world) r
  have hroutes := hfresh.routes_eq
  rw [← hbyHand] at hm
  cases hfind : Table.find? (r.refresh (outside.clock r.lines.world)).verdicts m.name with
  | some verdict =>
      have heq := isAvailable_of_some hfind
      have hlog : r.inquireLog outside m log = .used m verdict (outside.clock r.lines.world) ::
          r.refreshLog (outside.clock r.lines.world) log := by
        unfold inquireLog Table.has
        simp [heq, hfind]
      have hjustified := hfresh.isJustified hm hfind (by rw [hlines]; exact hage)
      rw [hlines] at hjustified
      rw [hlog]
      refine ⟨verdict, _, [], heq, hbyHand, hfresh.use hjustified, by simp, by simp, ?_⟩
      rw [hlines]
      exact .none
  | none =>
      by_cases hchecks : routes.checks = true
      · obtain ⟨verdict, lines, hanswers, hclock⟩ := hworld.answers hchecks _ _ _ hm
          (r.refresh (outside.clock r.lines.world)).lines
        have hjudge : (r.refresh (outside.clock r.lines.world)).judge outside m =
            (.ok verdict, { r.refresh (outside.clock r.lines.world) with lines }) := by
          rw [judge, hroutes, if_pos hchecks]
          exact checkServer_of_answers hanswers
        have heq := isAvailable_of_none hfind hjudge
        have hlog : r.inquireLog outside m log = .used m verdict (outside.clock lines.world) ::
            .checked m verdict (outside.clock lines.world) ::
              r.refreshLog (outside.clock r.lines.world) log := by
          unfold inquireLog Table.has
          simp [heq, hfind, h.routes_eq, hchecks]
        have hcheck := hfresh.check hchecks hm hfind hanswers hclock
        have hjustified : (Event.used m verdict (outside.clock lines.world)).IsJustified outside
            routes (.checked m verdict (outside.clock lines.world) ::
              r.refreshLog (outside.clock r.lines.world) log) :=
          (if_pos hchecks).mpr ⟨_, checked_mem_recent_checked.mpr (.inl ⟨rfl, rfl, rfl⟩), le_rfl,
            by rw [sub_self]; exact hpatience⟩
        rw [hlines] at hanswers
        rw [hlog]
        exact ⟨verdict, _, [(m, verdict)], heq, hbyHand, hcheck.use hjustified, by simp, by simp,
          .next hanswers .none⟩
      · have hjudge : (r.refresh (outside.clock r.lines.world)).judge outside m =
            (.ok true, r.refresh (outside.clock r.lines.world)) := by
          rw [judge, hroutes, if_neg hchecks]
        have heq := isAvailable_of_none hfind hjudge
        have hlog : r.inquireLog outside m log = .used m true (outside.clock r.lines.world) ::
            r.refreshLog (outside.clock r.lines.world) log := by
          unfold inquireLog
          simp [heq, h.routes_eq, hchecks]
        have hsupposed := hfresh.suppose (Bool.eq_false_iff.mpr hchecks) hfind
        rw [hlog]
        refine ⟨true, _, [], heq, hbyHand, hsupposed.use ((if_neg hchecks).mpr rfl), by simp,
          by simp, ?_⟩
        rw [hlines]
        exact .none

/-- The first available model among candidates after some verdicts, if there is one. -/
def IsFirst (candidates : List Model) (verdicts : List (Model × Bool)) (first : Option Model) :
    Prop :=
  (∃ before m after, candidates = before ++ m :: after ∧
    verdicts = before.map (·, false) ++ [(m, true)] ∧ first = some m) ∨
  (verdicts = candidates.map (·, false) ∧ first = none)

theorem IsFirst.isChoice {candidates : List Model} {verdicts : List (Model × Bool)}
    {first : Option Model} (h : IsFirst candidates verdicts first) :
    IsChoice candidates verdicts (first.or candidates.head?) := by
  rcases h with ⟨before, m, after, hcandidates, hverdicts, rfl⟩ | ⟨hverdicts, rfl⟩
  · exact .inl ⟨before, m, after, hcandidates, hverdicts, rfl⟩
  · exact .inr ⟨hverdicts, rfl⟩

theorem IsChoice.eq_none_iff {candidates : List Model} {verdicts : List (Model × Bool)}
    {chosen : Option Model} (h : IsChoice candidates verdicts chosen) :
    chosen = none ↔ candidates = [] := by
  rcases h with ⟨before, m, after, rfl, -, rfl⟩ | ⟨-, rfl⟩
  · simp
  · exact List.head?_eq_none_iff

theorem IsFirst.cons {candidates : List Model} {verdicts : List (Model × Bool)}
    {first : Option Model} (h : IsFirst candidates verdicts first) (m : Model) :
    IsFirst (m :: candidates) ((m, false) :: verdicts) first := by
  rcases h with ⟨before, m', after, rfl, rfl, hfirst⟩ | ⟨rfl, hfirst⟩
  · exact .inl ⟨m :: before, m', after, rfl, rfl, hfirst⟩
  · exact .inr ⟨rfl, hfirst⟩

/-- **What becomes of a router that looks for the first available model.** -/
theorem Knows.walk (h : Knows outside routes r log) (hworld : outside.IsOrderly routes)
    (hpatience : routes.patience.AtLeast 0) {candidates : List Model}
    (hcandidates : ∀ m ∈ candidates, ∃ name, routes.Builds r.byHand name (some m)) :
    ∃ first after used asked, r.firstAvailable outside candidates = (.ok first, after) ∧
      Knows outside routes after (r.walkLog outside candidates log) ∧
      Adds outside log r.lines used asked (r.walkLog outside candidates log) after.lines ∧
      IsFirst candidates used first := by
  induction candidates generalizing r log with
  | nil =>
      exact ⟨none, r, [], [], rfl, h, ⟨(List.append_nil _).symm, (List.append_nil _).symm, .none⟩,
        .inr ⟨rfl, rfl⟩⟩
  | cons m rest ih =>
      obtain ⟨name, hm⟩ := hcandidates m List.mem_cons_self
      obtain ⟨verdict, after, asked, heq, hbyHand, hafter, hadds⟩ :=
        h.inquire hworld hpatience hm
      cases verdict with
      | true =>
          refine ⟨some m, after, [(m, true)], asked, ?_, ?_, ?_,
            .inl ⟨[], m, rest, rfl, rfl, rfl⟩⟩
          · rw [firstAvailable, heq]
          · rw [walkLog, heq]
            exact hafter
          · rw [walkLog, heq]
            exact hadds
      | false =>
          obtain ⟨first, last, used, more, hrest, hlast, hmore, hfirst⟩ := ih hafter
            fun m hmem => hbyHand ▸ hcandidates m (List.mem_cons_of_mem _ hmem)
          refine ⟨first, last, (m, false) :: used, asked ++ more, ?_, ?_, ?_, hfirst.cons m⟩
          · rw [firstAvailable, heq]
            exact hrest
          · rw [walkLog, heq]
            exact hlast
          · rw [walkLog, heq]
            exact hadds.trans hmore

theorem Knows.resolve (h : Knows outside routes r log) (hworld : outside.IsOrderly routes)
    (hpatience : routes.patience.AtLeast 0) (purpose : String) :
    Knows outside routes (r.choose outside purpose).2 (r.resolveLog outside purpose log) ∧
      ∀ candidates, routes.HasCandidates r.byHand purpose candidates → ∃ chosen used asked,
        (r.choose outside purpose).1 = .ok chosen ∧
          Adds outside log r.lines used asked (r.resolveLog outside purpose log)
            (r.choose outside purpose).2.lines ∧
          IsChoice candidates used chosen := by
  unfold choose resolveLog
  rw [h.routes_eq]
  cases hcandidates : routes.candidates r.byHand purpose with
  | error misfit =>
      refine ⟨h, fun _ hothers => ?_⟩
      cases hcandidates.symm.trans (Routes.candidates_eq_ok_iff.mpr hothers)
  | ok candidates =>
      obtain ⟨names, -, hpicked⟩ := bind_eq_ok_iff.mp hcandidates
      obtain ⟨first, after, used, asked, heq, hafter, hadds, hfirst⟩ := h.walk hworld hpatience
        fun m hm => (exists_of_mem_filterMapM hpicked hm).imp
          fun _ h => Routes.model?_eq_ok_iff.mp h.2
      dsimp only
      rw [heq]
      refine ⟨hafter, fun _ hothers => ?_⟩
      cases hcandidates.symm.trans (Routes.candidates_eq_ok_iff.mpr hothers)
      exact ⟨_, used, asked, rfl, hadds, hfirst.isChoice⟩

theorem Knows.of_history {lines : Lines ω} (hworld : outside.IsOrderly routes)
    (hpatience : routes.patience.AtLeast 0) (hzero : 0 ≤ outside.seconds lines.world)
    (h : History outside { routes, lines } r log) : Knows outside routes r log := by
  induction h with
  | start => exact .start lines hzero
  | pass h lines hclock ih => exact ih.pass hclock
  | register h name ih => exact ih.register name
  | resolve h purpose ih => exact (ih.resolve hworld hpatience purpose).1

/-- **A router chooses the first model that is available, or the first one at all, and never by an
old verdict.**  Whatever happens to a new router while the clock does not go back: every verdict
that is used has been given by the server of the model since the last reset, and no longer ago than
verdicts are kept, and no model is checked twice between two resets.

Nothing is chosen for a purpose just if nobody serves any of the models that its chain names, the
chain being that of its own route or else of the default one.  Otherwise the first one that is
served is chosen whose verdict is that it is available, and if there is none, the first one that is
served; servers are asked for the verdicts that are not known, and for nothing else.  Where the
document is of no use in its place, this is reported, and nothing changes. -/
theorem chooses_first_fresh {lines : Lines ω} (hworld : outside.IsOrderly routes)
    (hpatience : routes.patience.AtLeast 0) (hzero : 0 ≤ outside.seconds lines.world)
    (h : History outside { routes, lines } r log) :
    IsSound outside routes log ∧ (∀ name, name ∈ r.byHand ↔ .registered name ∈ log) ∧ ∀ purpose,
      ((r.choose outside purpose).1 = .ok none ↔ ∃ names, routes.IsChain purpose names ∧
        ∀ name ∈ names, routes.Builds r.byHand name none) ∧
      (∀ candidates, routes.HasCandidates r.byHand purpose candidates → ∃ chosen used asked,
        (r.choose outside purpose).1 = .ok chosen ∧
          Adds outside log r.lines used asked (r.resolveLog outside purpose log)
            (r.choose outside purpose).2.lines ∧
          IsChoice candidates used chosen) ∧
      ((¬ ∃ candidates, routes.HasCandidates r.byHand purpose candidates) →
        ∃ misfit, r.choose outside purpose = (.error (.misfit misfit), r)) := by
  have hknows := Knows.of_history hworld hpatience hzero h
  refine ⟨hknows.sound, hknows.byHand, fun purpose =>
    ⟨?_, (hknows.resolve hworld hpatience purpose).2, fun hnone => ?_⟩⟩
  · have hnone : (∃ names, routes.IsChain purpose names ∧
        ∀ name ∈ names, routes.Builds r.byHand name none) ↔
          routes.HasCandidates r.byHand purpose [] := by
      rw [← Routes.candidates_eq_ok_iff]
      unfold Routes.candidates
      simp only [bind_eq_ok_iff, filterMapM_eq_nil_iff, Routes.chain_eq_ok_iff,
        Routes.model?_eq_ok_iff]
    rw [hnone]
    cases hcandidates : routes.candidates r.byHand purpose with
    | error misfit =>
        rw [← Routes.candidates_eq_ok_iff, hcandidates]
        unfold choose
        rw [hknows.routes_eq, hcandidates]
        simp
    | ok candidates =>
        obtain ⟨chosen, used, asked, heq, -, hchoice⟩ :=
          (hknows.resolve hworld hpatience purpose).2 candidates
            (Routes.candidates_eq_ok_iff.mp hcandidates)
        rw [← Routes.candidates_eq_ok_iff, hcandidates, heq, Except.ok.injEq, Except.ok.injEq]
        exact hchoice.eq_none_iff
  · cases hcandidates : routes.candidates r.byHand purpose with
    | ok candidates => exact absurd ⟨_, Routes.candidates_eq_ok_iff.mp hcandidates⟩ hnone
    | error misfit =>
        refine ⟨misfit, ?_⟩
        unfold choose
        rw [hknows.routes_eq, hcandidates]

/-! ### A model that is lost -/

/-- The services of the small document: one has its key, and one has none. -/
def smallServices : Table Value :=
  [("p", .object [("type", .text "openai_compatible"), ("api_key_env", .text "KEY")]),
    ("q", .object [("type", .text "openai"), ("api_key_env", .text "GONE")])]

/-- A document with two models in the chain of one purpose, and none in the default chain. -/
def smallDocument : Value :=
  .object
    [("providers", .object smallServices),
      ("models", .object
        [("lost", .object [("provider", .text "q")]), ("m", .object [("provider", .text "p")])]),
      ("routing", .object
        [("own", .object [("chain", .list [.text "lost", .text "m"])]),
          ("default", .object [("chain", .list [])])])]

/-- Verdicts are kept for half an hour. -/
def smallRoutes : Routes where
  document := smallDocument
  environment := [("KEY", "k")]
  patience := .finite false (1800 * Nat.pow 2 42) (-42)
  checks := true

/-- A world of two truth values: that more than half an hour has passed, and that the endpoints
answer. -/
def smallOutside : Outside (Bool × Bool) where
  clock w := .double (if w.1 then .finite false (2000 * Nat.pow 2 42) (-42)
    else .finite false (100 * Nat.pow 2 46) (-46))
  connect _ w := w
  listModels _ w := (if w.2 then .ok () else .error (.refusal ⟨.connection, "", []⟩), w)
  create _ _ w := (.ok ⟨[], none⟩, w)
  check _ _ w := (.ok w.2, w)
  ask _ _ _ _ w := (.ok { content := none, model := .null, service := .null }, w)

/-- Every endpoint of the small document has a key. -/
theorem isGiven_key_small {byHand : List String} {service : Value} {e : Endpoint}
    (h : smallRoutes.Serves byHand service (some (.endpoint e))) : e.key.isGiven = true := by
  obtain ⟨label, services, settings, ⟨document, hdocument, hservices⟩, hfind, hdescribes⟩ :=
    h.exists_describes
  cases hdocument
  cases hservices
  cases hdescribes with
  | endpoint htype hkey htimeout =>
      refine hkey.isGiven ?_
      have hmem : (label, .object settings) ∈ smallServices := Table.mem_of_find? hfind
      simp only [smallServices, List.mem_cons, List.not_mem_nil, or_false, Prod.mk.injEq,
        Value.object.injEq] at hmem
      rcases hmem with ⟨-, rfl⟩ | ⟨-, rfl⟩ <;> decide

/-- An endpoint with a key is asked which models it has. -/
theorem check_small {e : Endpoint} (hkey : e.key.isGiven = true) (before : Lines (Bool × Bool)) :
    ∃ verdict after, e.check smallOutside.toWire before = (.ok verdict, after) ∧
      after.world = before.world := by
  have hworld : (e.connect smallOutside.toWire before).world = before.world := by
    unfold Endpoint.connect
    split <;> rfl
  unfold Endpoint.check
  rw [if_pos hkey]
  show ∃ verdict after, (Endpoint.verdict (if (e.connect smallOutside.toWire before).world.2 then
    .ok () else .error (.refusal ⟨.connection, "", []⟩)), _) = (Except.ok verdict, after) ∧ _
  split
  · exact ⟨true, _, rfl, hworld⟩
  · exact ⟨false, _, rfl, hworld⟩

theorem isOrderly_small : smallOutside.IsOrderly smallRoutes where
  reads w := by
    refine ⟨if w.1 then .finite false (2000 * Nat.pow 2 42) (-42)
      else .finite false (100 * Nat.pow 2 46) (-46), rfl, ?_⟩
    split
    · exact .inr ⟨by decide, by decide, by decide, by decide, .inr (by decide)⟩
    · exact .inr ⟨by decide, by decide, by decide, by decide, .inr (by decide)⟩
  answers _ byHand name m hm before := by
    obtain ⟨service, hserves⟩ := hm.exists_serves
    cases hserver : m.server with
    | byHand name => exact ⟨before.world.2, _, .byHand hserver rfl, le_rfl⟩
    | endpoint e =>
        rw [hserver] at hserves
        obtain ⟨verdict, after, hcheck, hworld⟩ := check_small (isGiven_key_small hserves) before
        exact ⟨verdict, after, .endpoint hserver hcheck, (congrArg smallOutside.seconds hworld).ge⟩

/-- A new router, before anything has happened. -/
def smallStart : Router (Bool × Bool) := { routes := smallRoutes, lines := ⟨[], false, true⟩ }

/-- The router after a service has been set up by hand and a model has been chosen, when the
endpoint does not answer any more and the verdict on the model is too old. -/
def smallLater : Router (Bool × Bool) :=
  let chosen := ((smallStart.register "s").choose smallOutside "own").2
  { chosen with lines := { chosen.lines with world := (true, false) } }

/-- The log after a model has been chosen again. -/
def smallLog : List Event :=
  smallLater.resolveLog smallOutside "own"
    ((smallStart.register "s").resolveLog smallOutside "own" [.registered "s"])

/-- When the time of a verdict is up the endpoint is asked again, and its model chosen although it
is lost, as the other one in the chain of the purpose is not served. -/
theorem chooses_first_fresh_lost : ∃ r, History smallOutside smallStart r smallLog ∧
    smallOutside.IsOrderly smallRoutes ∧ smallRoutes.patience.AtLeast 0 ∧
    0 ≤ smallOutside.seconds smallStart.lines.world ∧
    (verdictsUsed smallLog).map (·.2) = [true, false] ∧
    smallLog.map Event.isReset = [false, false, true, false, false, true] ∧
    IsSound smallOutside smallRoutes smallLog ∧
    smallRoutes.IsChain "own" [.text "lost", .text "m"] ∧
    smallRoutes.Builds ["s"] (.text "lost") none ∧
    ∃ m e, (r.choose smallOutside "own").1 = .ok (some m) ∧ m.name = "m" ∧
      m.server = .endpoint e ∧ e.key = .text "k" := by
  have hpatience : smallRoutes.patience.AtLeast 0 := by
    show (0 : ℚ) ≤ (Double.finite false (1800 * Nat.pow 2 42) (-42)).value
    decide +kernel
  have hzero : 0 ≤ smallOutside.seconds smallStart.lines.world := by decide +kernel
  have hclock : smallOutside.seconds
        ((smallStart.register "s").choose smallOutside "own").2.lines.world ≤
      smallOutside.seconds (true, false) := by decide +kernel
  have hregistered : History smallOutside smallStart (smallStart.register "s") [.registered "s"] :=
    .register .start "s"
  have hasked := hregistered.resolve "own"
  have hlog : History smallOutside smallStart (smallLater.choose smallOutside "own").2 smallLog :=
    (hasked.pass { ((smallStart.register "s").choose smallOutside "own").2.lines with
      world := (true, false) } hclock).resolve "own"
  obtain ⟨hsound, -, hchoices⟩ := chooses_first_fresh isOrderly_small hpatience hzero hlog
  obtain ⟨-, hchoice, -⟩ := hchoices "own"
  have hbyHand : (smallLater.choose smallOutside "own").2.byHand = ["s"] := by decide +kernel
  rw [hbyHand] at hchoice
  obtain ⟨chosen, used, asked, heq, -, hchosen⟩ :=
    hchoice [_] (Routes.candidates_eq_ok_iff.mp rfl)
  have hused : (verdictsUsed smallLog).map (·.2) = [true, false] := by decide +kernel
  have hresets : smallLog.map Event.isReset = [false, false, true, false, false, true] := by
    decide +kernel
  refine ⟨_, hlog, isOrderly_small, hpatience, hzero, hused, hresets, hsound,
    Routes.chain_eq_ok_iff.mp rfl, Routes.model?_eq_ok_iff.mp rfl, ?_⟩
  rw [heq]
  rcases hchosen with ⟨before, m, after, hmodels, -, rfl⟩ | ⟨-, rfl⟩
  · obtain ⟨rfl, -⟩ | ⟨rest, -, hnil⟩ := List.append_eq_cons_iff.mp hmodels.symm
    · cases hmodels
      exact ⟨_, _, rfl, rfl, rfl, rfl⟩
    · cases rest <;> cases hnil
  · exact ⟨_, _, rfl, rfl, rfl, rfl⟩

end Router

end PhpMigration
