/-
Stopping a conversion while other threads use the ledger.

A thread that uses the ledger holds its lock, and so every operation is one section that nothing
comes in between of, except for a stop: that takes the lock twice.  In its first section it looks
whether the project has a record, and answers at once if there is none.  Otherwise it lets go of
the lock, and merges its change into the record in a second section.  What is found out in the
first section need not hold any more in the second one, and a change that is merged where there is
no record begins one.

A schedule is a list of sections, each by one of any number of threads.  Whether a stop makes a
record appear can be seen from the schedule alone: only a clear takes a record away, so it comes to
the question whether there was one between the two sections (`IsOvertaken`).
-/
import Mathlib.Data.List.Induction
import PhpMigration.Proofs.Project.History

namespace PhpMigration

/-- An operation on the ledger that is one section. -/
inductive Access where
  | create (project : String) (change : Change)
  | update (project : String) (change : Change)
  | settle (project : String) (failure : Option Value)
  | complete (project : String)
  | fail (project : String) (message : Value)
  | get (project : String)
  | has (project : String)
  /-- Of all projects, if none is named. -/
  | clear (project : Option String)
  deriving DecidableEq, Repr

/-- What a thread does while it holds the lock. -/
inductive Section where
  | access (operation : Access)
  /-- The first section of a stop. -/
  | check (project : String) (message : Value)
  /-- The second section of the stop that the thread is at. -/
  | finish
  deriving DecidableEq, Repr

/-- A section and the thread that carries it out. -/
structure Turn where
  thread : Nat
  part : Section
  deriving DecidableEq, Repr

namespace Access

/-- The ledger after an operation; one that is a misfit changes nothing. -/
def after (l : Ledger) : Access → Ledger
  | .create project c => l.afterwards (l.create project c)
  | .update project c => l.afterwards (l.update project c)
  | .settle project failure => l.afterwards (l.settle project failure)
  | .complete project => l.afterwards (l.complete project)
  | .fail project message => l.afterwards (l.fail project message)
  | .get _ | .has _ => l
  | .clear project => l.clear project

/-- The operation forgets the record of a project. -/
def clears (project : String) : Access → Bool
  | .clear none => true
  | .clear (some p) => decide (p = project)
  | _ => false

end Access

/-- The turn is part of a stop. -/
def Turn.isOfStop (a : Turn) : Bool :=
  match a.part with
  | .check .. | .finish => true
  | .access _ => false

/-- The turn forgets the record of a project. -/
def Turn.clears (project : String) (a : Turn) : Bool :=
  match a.part with
  | .access operation => operation.clears project
  | .check .. | .finish => false

/-- The ledger and the stops that are between their sections: the project and the message of each,
by thread. -/
structure Scene where
  ledger : Ledger := []
  pending : Nat → Option (String × Value) := fun _ => none

namespace Scene

/-- The scene with a thread between the sections of a stop, or no longer so. -/
def await (s : Scene) (thread : Nat) (stop : Option (String × Value)) : Scene :=
  { s with pending := fun t => if t = thread then stop else s.pending t }

/-- The scene after a turn, if the thread can do that: it must finish the stop that it is at before
it does anything else. -/
def step (s : Scene) (a : Turn) : Option Scene :=
  match s.pending a.thread, a.part with
  | none, .access operation => some { s with ledger := operation.after s.ledger }
  | none, .check project message =>
    some (if Table.has s.ledger project then s.await a.thread (some (project, message)) else s)
  | some (project, message), .finish =>
    some { s.await a.thread none with
      ledger := s.ledger.afterwards (s.ledger.update project (Ledger.stopping message)) }
  | none, .finish | some _, .access _ | some _, .check .. => none

/-- The scene after a schedule, if it can be carried out. -/
def run (s : Scene) : List Turn → Option Scene
  | [] => some s
  | a :: turns => (s.step a).bind fun s => s.run turns

/-- A ledger, and no stop at all. -/
def ofLedger (l : Ledger) : Scene := { ledger := l }

end Scene

/-! ### What is owed, and what happens -/

/-- After some turns, a section of a stop gives a record to a project that has none. -/
def Conjures (l : Ledger) (turns : List Turn) (a : Turn) (project : String) : Prop :=
  a.isOfStop = true ∧ ∃ s s', (Scene.ofLedger l).run turns = some s ∧ s.step a = some s' ∧
    Table.has s.ledger project = false ∧ Table.has s'.ledger project = true

/-- **What a stop owes**: none of its sections in a schedule makes a record appear. -/
def ConjuresNothing (l : Ledger) (schedule : List Turn) : Prop :=
  ∀ turns a later project, schedule = turns ++ a :: later → ¬ Conjures l turns a project

/-- Between the sections of a stop its project has lost the record. -/
structure LosesRecord (l : Ledger) (earlier : List Turn) (check : Turn) (project : String)
    (between : List Turn) : Prop where
  /-- The stop has found a record. -/
  found : ∃ s, (Scene.ofLedger l).run earlier = some s ∧ Table.has s.ledger project = true
  /-- The thread does nothing else in between. -/
  others : ∀ a ∈ between, a.thread ≠ check.thread
  /-- Another one forgets the record. -/
  forgotten : ∃ a ∈ between, a.clears project = true
  /-- The project has none when the stop goes on. -/
  gone : ∃ s, (Scene.ofLedger l).run (earlier ++ check :: between) = some s ∧
    Table.has s.ledger project = false

/-- After some turns, the turn is the second section of a stop, which was overtaken by a clear. -/
def IsOvertaken (l : Ledger) (turns : List Turn) (a : Turn) (project : String) : Prop :=
  a.part = .finish ∧ ∃ earlier message between,
    turns = earlier ++ ⟨a.thread, .check project message⟩ :: between ∧
    LosesRecord l earlier ⟨a.thread, .check project message⟩ project between

/-! ### The ledger -/

namespace Ledger

variable {l : Ledger} {project other : String}

theorem has_entered (l : Ledger) (project other : String) (new : Option Record) :
    Table.has (l.entered project new) other =
      (Table.has l other || decide (other = project) && new.isSome) := by
  cases new with
  | none =>
      show Table.has l other = _
      rw [Option.isSome_none, Bool.and_false, Bool.or_false]
  | some r =>
      show Table.has (Table.set project r l) other = _
      rw [has_set, Option.isSome_some, Bool.and_true, Bool.or_comm]

/-- A change without a progress that is merged where there is no record begins one. -/
theorem update_of_not_has {c : Change} (h : Table.has l project = false) (hp : c.progress = none)
    (hs : c.isStrange = false) :
    l.update project c =
      .ok (({} : Record).changed c, Table.set project (({} : Record).changed c) l) := by
  have hget : l.get project = {} := by
    unfold get
    rw [Option.isSome_eq_false_iff.mp h |> Option.isNone_iff_eq_none.mp]
    rfl
  have hstatus : (l.get project).status = .inProgress := by rw [hget]
  have hupdate := update_of_inProgress hstatus hp hs
  rwa [hget] at hupdate

/-- The record that a stop makes where there is none. -/
def stoppedRecord (message : Value) : Record :=
  { status := .stopped, step := .text "stopped", error := message }

/-- The second section of a stop gives a record to its project, and to no other one. -/
theorem has_afterwards_stopping (l : Ledger) (project other : String) (message : Value) :
    Table.has (l.afterwards (l.update project (stopping message))) other =
      (Table.has l other || decide (other = project)) := by
  cases hhas : Table.has l project with
  | false =>
      rw [update_of_not_has hhas rfl rfl]
      show Table.has (Table.set project _ l) other = _
      rw [has_set, Bool.or_comm]
  | true =>
      obtain ⟨new, hnew⟩ := exists_revise_eq project (fun _ => pure (stopping message))
        (l.get project)
      unfold update
      rw [hnew l rfl, has_entered]
      by_cases h : other = project
      · subst h
        simp [hhas]
      · simp [h]

/-- A record that has appeared then can only be that of its own project. -/
theorem eq_of_has_afterwards_stopping {message : Value} (hgone : Table.has l other = false)
    (h : Table.has (l.afterwards (l.update project (stopping message))) other = true) :
    other = project := by
  rw [has_afterwards_stopping, hgone, Bool.false_or] at h
  exact of_decide_eq_true h

end Ledger

/-- Only a clear takes the record of a project away. -/
theorem Access.has_after {operation : Access} {project : String}
    (hclears : operation.clears project = false) {l : Ledger}
    (h : Table.has l project = true) : Table.has (operation.after l) project = true := by
  have hrevise : ∀ p change,
      Table.has (l.afterwards (l.revise p change)) project = true := by
    intro p change
    obtain ⟨new, hnew⟩ := Ledger.exists_revise_eq p change (l.get p)
    rw [hnew l rfl, Ledger.has_entered, h, Bool.true_or]
  cases operation with
  | create p c =>
      obtain ⟨new, hnew⟩ := Ledger.exists_create_eq p c (Table.find? l p)
      show Table.has (l.afterwards (l.create p c)) project = true
      rw [hnew l rfl, Ledger.has_entered, h, Bool.true_or]
  | update p c => exact hrevise p _
  | settle p failure => exact hrevise p _
  | complete p => exact hrevise p fun _ => pure _
  | fail p message => exact hrevise p fun _ => pure _
  | get p => exact h
  | has p => exact h
  | clear p =>
      cases p with
      | none => cases hclears
      | some p =>
          have hne : ¬ project = p := Ne.symm (of_decide_eq_false hclears)
          show Table.has (Table.erase p l) project = true
          unfold Table.has
          rw [Table.find?_erase, if_neg hne]
          exact h

namespace Scene

variable {s s' : Scene} {a : Turn} {turns : List Turn} {project : String} {message : Value}

/-! ### One turn -/

@[simp] theorem await_ledger (s : Scene) (thread : Nat) (stop : Option (String × Value)) :
    (s.await thread stop).ledger = s.ledger := rfl

theorem await_pending (s : Scene) (thread : Nat) (stop : Option (String × Value)) (t : Nat) :
    (s.await thread stop).pending t = if t = thread then stop else s.pending t := rfl

/-- All that a turn can be and do. -/
theorem step_cases (h : s.step a = some s') :
    (∃ operation, a.part = .access operation ∧ s.pending a.thread = none ∧
      s' = { s with ledger := operation.after s.ledger }) ∨
    (∃ project message, a.part = .check project message ∧ s.pending a.thread = none ∧
      Table.has s.ledger project = false ∧ s' = s) ∨
    (∃ project message, a.part = .check project message ∧ s.pending a.thread = none ∧
      Table.has s.ledger project = true ∧ s' = s.await a.thread (some (project, message))) ∨
    ∃ project message, a.part = .finish ∧ s.pending a.thread = some (project, message) ∧
      s' = { s.await a.thread none with
        ledger := s.ledger.afterwards (s.ledger.update project (Ledger.stopping message)) } := by
  obtain ⟨thread, part⟩ := a
  cases hpending : s.pending thread with
  | none =>
      cases part with
      | access operation =>
          simp only [step, hpending, Option.some.injEq] at h
          exact .inl ⟨operation, rfl, rfl, h.symm⟩
      | check project message =>
          simp only [step, hpending, Option.some.injEq] at h
          cases hhas : Table.has s.ledger project with
          | false =>
              rw [if_neg (by simp [hhas])] at h
              exact .inr (.inl ⟨project, message, rfl, rfl, hhas, h.symm⟩)
          | true =>
              rw [if_pos hhas] at h
              exact .inr (.inr (.inl ⟨project, message, rfl, rfl, hhas, h.symm⟩))
      | finish => simp [step, hpending] at h
  | some stop =>
      obtain ⟨project, message⟩ := stop
      cases part with
      | access operation => simp [step, hpending] at h
      | check p m => simp [step, hpending] at h
      | finish =>
          simp only [step, hpending, Option.some.injEq] at h
          exact .inr (.inr (.inr ⟨project, message, rfl, rfl, h.symm⟩))

/-- What a thread is at does not change by what others do. -/
theorem pending_of_ne (h : s.step a = some s') {thread : Nat} (hne : a.thread ≠ thread) :
    s'.pending thread = s.pending thread := by
  rcases step_cases h with ⟨_, -, -, rfl⟩ | ⟨_, _, -, -, -, rfl⟩ | ⟨_, _, -, -, -, rfl⟩ |
    ⟨_, _, -, -, rfl⟩
  · rfl
  · rfl
  · rw [await_pending, if_neg (Ne.symm hne)]
  · exact if_neg (Ne.symm hne)

/-- A record stays where it is not forgotten. -/
theorem has_of_step (h : s.step a = some s') (hclears : a.clears project = false)
    (hhas : Table.has s.ledger project = true) : Table.has s'.ledger project = true := by
  rcases step_cases h with ⟨operation, hpart, -, rfl⟩ | ⟨_, _, -, -, -, rfl⟩ |
    ⟨_, _, -, -, -, rfl⟩ | ⟨p, message, -, -, rfl⟩
  · simp only [Turn.clears, hpart] at hclears
    exact Access.has_after hclears hhas
  · exact hhas
  · exact hhas
  · show Table.has (s.ledger.afterwards _) project = true
    rw [Ledger.has_afterwards_stopping, hhas, Bool.true_or]

theorem step_check_of_has {thread : Nat} (h : s.pending thread = none)
    (hhas : Table.has s.ledger project = true) :
    s.step ⟨thread, .check project message⟩ =
      some (s.await thread (some (project, message))) := by
  simp [step, h, hhas]

theorem step_finish {thread : Nat} (h : s.pending thread = some (project, message)) :
    s.step ⟨thread, .finish⟩ = some { s.await thread none with
      ledger := s.ledger.afterwards (s.ledger.update project (Ledger.stopping message)) } := by
  simp [step, h]

/-! ### Schedules -/

theorem run_append (s : Scene) (turns more : List Turn) :
    s.run (turns ++ more) = (s.run turns).bind fun s => s.run more := by
  induction turns generalizing s with
  | nil => rfl
  | cons a turns ih =>
      show (s.step a).bind _ = ((s.step a).bind _).bind _
      rw [Option.bind_assoc]
      exact congrArg _ (funext fun s => ih s)

theorem run_snoc (s : Scene) (turns : List Turn) (a : Turn) :
    s.run (turns ++ [a]) = (s.run turns).bind fun s => s.step a := by
  rw [run_append]
  exact congrArg _ (funext fun s => Option.bind_fun_some (s.step a))

/-- A project that has lost its record was cleared. -/
theorem exists_clears_of_run (h : s.run turns = some s')
    (hhas : Table.has s.ledger project = true) (hgone : Table.has s'.ledger project = false) :
    ∃ a ∈ turns, a.clears project = true := by
  induction turns generalizing s with
  | nil =>
      obtain rfl : s = s' := Option.some.inj h
      rw [hhas] at hgone
      cases hgone
  | cons a turns ih =>
      obtain ⟨s₁, hstep, hrun⟩ := Option.bind_eq_some_iff.mp h
      cases hclears : a.clears project with
      | true => exact ⟨a, List.mem_cons_self, hclears⟩
      | false =>
          obtain ⟨b, hb, hclears⟩ := ih hrun (has_of_step hstep hclears hhas)
          exact ⟨b, List.mem_cons_of_mem _ hb, hclears⟩

theorem pending_of_run {thread : Nat} (h : s.run turns = some s')
    (hothers : ∀ a ∈ turns, a.thread ≠ thread) : s'.pending thread = s.pending thread := by
  induction turns generalizing s with
  | nil =>
      obtain rfl : s = s' := Option.some.inj h
      rfl
  | cons a turns ih =>
      obtain ⟨s₁, hstep, hrun⟩ := Option.bind_eq_some_iff.mp h
      rw [ih hrun fun b hb => hothers b (List.mem_cons_of_mem _ hb),
        pending_of_ne hstep (hothers a List.mem_cons_self)]

/-- A thread that is between the sections of a stop has found a record in the first one, and has
done nothing since. -/
theorem exists_check_of_pending {l : Ledger} {thread : Nat}
    (h : (ofLedger l).run turns = some s) (hpending : s.pending thread = some (project, message)) :
    ∃ earlier between, turns = earlier ++ ⟨thread, .check project message⟩ :: between ∧
      (∃ s₀, (ofLedger l).run earlier = some s₀ ∧ Table.has s₀.ledger project = true) ∧
      ∀ a ∈ between, a.thread ≠ thread := by
  induction turns using List.reverseRecOn generalizing s with
  | nil =>
      obtain rfl : ofLedger l = s := Option.some.inj h
      cases hpending
  | append_singleton turns a ih =>
      rw [run_snoc] at h
      obtain ⟨s₁, hrun, hstep⟩ := Option.bind_eq_some_iff.mp h
      by_cases hthread : a.thread = thread
      · -- The last turn is its own, so it is the check.
        subst hthread
        obtain ⟨own, part⟩ := a
        rcases step_cases hstep with ⟨_, -, hnone, rfl⟩ | ⟨_, _, -, hnone, -, rfl⟩ |
          ⟨p, m, hpart, -, hhas, rfl⟩ | ⟨_, _, -, -, rfl⟩
        · exact absurd (hnone.symm.trans hpending) nofun
        · exact absurd (hnone.symm.trans hpending) nofun
        · rw [await_pending, if_pos rfl] at hpending
          cases hpending
          cases hpart
          exact ⟨turns, [], rfl, ⟨s₁, hrun, hhas⟩, by simp⟩
        · change (s₁.await own none).pending own = some (project, message) at hpending
          rw [await_pending, if_pos rfl] at hpending
          cases hpending
      · rw [pending_of_ne hstep hthread] at hpending
        obtain ⟨earlier, between, rfl, hfound, hothers⟩ := ih hrun hpending
        refine ⟨earlier, between ++ [a], by simp, hfound, fun b hb => ?_⟩
        rcases List.mem_append.mp hb with hb | hb
        · exact hothers b hb
        · rwa [List.mem_singleton.mp hb]

/-- A stop that nothing comes in between of is the whole operation. -/
theorem run_stop {thread : Nat} (hpending : s.pending thread = none)
    (hhas : Table.has s.ledger project = true) :
    (s.run [⟨thread, .check project message⟩, ⟨thread, .finish⟩]).map Scene.ledger =
      some (s.ledger.afterwards (s.ledger.stop project message)) := by
  have hcheck : s.step ⟨thread, .check project message⟩ =
      some (s.await thread (some (project, message))) := step_check_of_has hpending hhas
  have hwaits : (s.await thread (some (project, message))).pending thread =
      some (project, message) := if_pos rfl
  have hfinish := step_finish hwaits
  simp only [run, hcheck, hfinish, Option.bind_some, Option.map_some, await_ledger]
  unfold Ledger.stop
  rw [if_pos hhas]

end Scene

/-! ### Stops that are overtaken -/

variable {l : Ledger} {turns : List Turn} {a : Turn} {project : String}

theorem IsOvertaken.conjures (h : IsOvertaken l turns a project) : Conjures l turns a project := by
  obtain ⟨thread, part⟩ := a
  obtain ⟨rfl, earlier, message, between, rfl, hloses⟩ := h
  obtain ⟨s₀, hrun₀, hhas⟩ := hloses.found
  obtain ⟨s, hrun, hgone⟩ := hloses.gone
  -- The check comes first, and then only others until the stop goes on.
  have hrest := hrun
  rw [Scene.run_append, hrun₀, Option.bind_some] at hrest
  obtain ⟨s₁, hstep, hbetween⟩ := Option.bind_eq_some_iff.mp hrest
  have hfree : s₀.pending thread = none := by
    rcases Scene.step_cases hstep with ⟨_, hpart, -, -⟩ | ⟨_, _, -, h, -, -⟩ |
      ⟨_, _, -, h, -, -⟩ | ⟨_, _, hpart, -, -⟩
    · cases hpart
    · exact h
    · exact h
    · cases hpart
  rw [Scene.step_check_of_has hfree hhas] at hstep
  obtain rfl := Option.some.inj hstep
  have hpending : s.pending thread = some (project, message) := by
    rw [Scene.pending_of_run hbetween hloses.others]
    exact if_pos rfl
  refine ⟨rfl, s, _, hrun, Scene.step_finish hpending, hgone, ?_⟩
  show Table.has (s.ledger.afterwards _) project = true
  rw [Ledger.has_afterwards_stopping]
  simp

theorem Conjures.isOvertaken (h : Conjures l turns a project) : IsOvertaken l turns a project := by
  obtain ⟨hstop, s, s', hrun, hstep, hgone, hhas⟩ := h
  rcases Scene.step_cases hstep with ⟨_, hpart, -, -⟩ | ⟨_, _, -, -, -, rfl⟩ |
    ⟨_, _, -, -, -, rfl⟩ | ⟨p, message, hpart, hpending, rfl⟩
  · simp [Turn.isOfStop, hpart] at hstop
  · exact absurd (hgone.symm.trans hhas) nofun
  · exact absurd (hgone.symm.trans hhas) nofun
  · obtain rfl : project = p := Ledger.eq_of_has_afterwards_stopping hgone hhas
    obtain ⟨earlier, between, rfl, ⟨s₀, hrun₀, hfound⟩, hothers⟩ :=
      Scene.exists_check_of_pending hrun hpending
    refine ⟨hpart, earlier, message, between, rfl, ⟨⟨s₀, hrun₀, hfound⟩, hothers, ?_,
      ⟨s, hrun, hgone⟩⟩⟩
    rw [Scene.run_append, hrun₀, Option.bind_some] at hrun
    obtain ⟨s₁, hcheck, hbetween⟩ := Option.bind_eq_some_iff.mp hrun
    exact Scene.exists_clears_of_run hbetween (Scene.has_of_step hcheck rfl hfound) hgone

/-- What appears is the answer that a stop gives for a project without a record. -/
theorem IsOvertaken.find?_eq (h : IsOvertaken l turns a project) :
    ∃ message s s', (Scene.ofLedger l).run turns = some s ∧ s.step a = some s' ∧
      Table.find? s'.ledger project = some (Ledger.stoppedRecord message) := by
  obtain ⟨hstop, s, s', hrun, hstep, hgone, hhas⟩ := h.conjures
  obtain ⟨hpart, -⟩ := h
  rcases Scene.step_cases hstep with ⟨_, hpart', -, -⟩ | ⟨_, _, hpart', -, -, -⟩ |
    ⟨_, _, hpart', -, -, -⟩ | ⟨p, message, -, -, rfl⟩
  · exact absurd (hpart.symm.trans hpart') nofun
  · exact absurd (hpart.symm.trans hpart') nofun
  · exact absurd (hpart.symm.trans hpart') nofun
  · obtain rfl : project = p := Ledger.eq_of_has_afterwards_stopping hgone hhas
    refine ⟨message, s, _, hrun, hstep, ?_⟩
    show Table.find? (s.ledger.afterwards _) project = _
    rw [Ledger.update_of_not_has hgone rfl rfl]
    exact (Table.find?_set s.ledger project project _).trans (if_pos rfl)

/-- **Stops conjure up nothing exactly if none is overtaken by a clear between its sections.** -/
theorem conjuresNothing_iff (l : Ledger) (schedule : List Turn) :
    ConjuresNothing l schedule ↔
      ∀ turns a later project, schedule = turns ++ a :: later →
        ¬ IsOvertaken l turns a project := by
  constructor
  · intro h turns a later project hschedule hovertaken
    exact h turns a later project hschedule hovertaken.conjures
  · intro h turns a later project hschedule hconjures
    exact h turns a later project hschedule hconjures.isOvertaken

/-- A project is cleared by one thread while another one is stopping it. -/
def overtakenStop : List Turn :=
  [⟨0, .access (.create "demo" {})⟩, ⟨0, .check "demo" (.text Ledger.stopMessage)⟩,
    ⟨1, .access (.clear (some "demo"))⟩]

theorem not_conjuresNothing_overtakenStop :
    ¬ ConjuresNothing [] (overtakenStop ++ [⟨0, .finish⟩]) := by
  intro h
  have hbefore : ((Scene.ofLedger []).run overtakenStop).map
      (fun s => Table.has s.ledger "demo") = some false := by decide +kernel
  have hafter : ((Scene.ofLedger []).run (overtakenStop ++ [⟨0, .finish⟩])).map
      (fun s => Table.has s.ledger "demo") = some true := by decide +kernel
  obtain ⟨s, hs, hgone⟩ := Option.map_eq_some_iff.mp hbefore
  obtain ⟨s', hs', hhas⟩ := Option.map_eq_some_iff.mp hafter
  rw [Scene.run_snoc, hs, Option.bind_some] at hs'
  exact h overtakenStop ⟨0, .finish⟩ [] "demo" rfl ⟨rfl, s, s', hs, hs', hgone, hhas⟩

end PhpMigration
