/-
What a move of a conversion can do, whatever comes of the attempts.

What an attempt at a file comes to depends on the file, on what a service says and on whether the
result can be written, and all of that may be different at every attempt.  So it is left open here:
an attempt may fail before it has read anything, after it has asked a service, or while it writes,
and then any part of a text may have been written; or it succeeds, and then all of the text has
been.  What is proved of all these moves (`Moved`) holds for every converter.

Where it matters what an attempt does with its text, only the conversion of the text is left open.
A strategy says which outcomes it may have at an attempt of a number, and everything else is done as
the converter does it (`Played`).  Every move of a converter whose service looks at nothing but its
own state is one of these, for each strategy that may have the outcome that comes of its text
(`played_of_step`).

What a move leaves alone is said once for each of them: an attempt touches neither the ledger nor
the mappings, and a failure is followed by nothing but a wait.
-/
import PhpMigration.Project.Run
import PhpMigration.Proofs.Project.Ledger

namespace PhpMigration

/-- An attempt at a file and what came of it: the mapping with the text that was written, or the
cause of the failure. -/
structure Trial where
  file : List String
  result : Except Incident (Mapping × String)

variable {σ : Type}

/-- What an attempt at a file may come to. -/
inductive Attempted (r : Run) (file : List String) (w : Workshop σ) :
    Except Incident (Mapping × String) → Workshop σ → Prop
  | unread (cause : Incident) : Attempted r file w (.error cause) w
  | unconverted (cause : Incident) (s : σ) :
      Attempted r file w (.error cause) { w with service := s }
  | unwritten (cause : Incident) (content part : String) (s : σ) :
      Attempted r file w (.error cause)
        (Converter.deliver r (.ofFile (Path.join file) content) part { w with service := s }).2
  | delivered {m : Mapping} {w' : Workshop σ} (content code : String) (s : σ)
      (h : Converter.deliver r (.ofFile (Path.join file) content) code { w with service := s } =
        (.ok m, w')) : Attempted r file w (.ok (m, code)) w'

/-- What a move may do, and the attempt that it makes if it makes one. -/
inductive Moved (c : Converter σ) :
    Move → Option Trial → Run → Workshop σ → Run → Workshop σ → Prop
  | dispatch {r r' : Run} {w : Workshop σ} (h : Converter.dispatch r w = some r') :
      Moved c .dispatch none r w r' w
  | converted {r : Run} {w w' : Workshop σ} {place n : Nat} {file : List String} {m : Mapping}
      {code : String} (ht : r.tasks[place]? = some ⟨file, .waiting n⟩)
      (h : Attempted r file w (.ok (m, code)) w') :
      Moved c (.attempt place) (some ⟨file, .ok (m, code)⟩) r w
        (Converter.setStanding r place file (.converted m)) w'
  | missed {r : Run} {w w' : Workshop σ} {place n : Nat} {file : List String} {cause : Incident}
      (ht : r.tasks[place]? = some ⟨file, .waiting n⟩)
      (h : Attempted r file w (.error cause) w') :
      Moved c (.attempt place) (some ⟨file, .error cause⟩) r w
        (Converter.setStanding r place file (c.afterFailure n cause w').1)
        (c.afterFailure n cause w').2
  | settle {r r' : Run} {w w' : Workshop σ} {place : Nat}
      (h : Converter.settleFile place r w = some (r', w')) :
      Moved c (.settle place) none r w r' w'

/-! ### Moves with a strategy -/

/-- The outcomes that the conversion of a file may have at an attempt of a number. -/
abbrev Strategy := List String → Nat → Except Incident String → Prop

/-- The strategy that may have any outcome. -/
def Strategy.free : Strategy := fun _ _ _ => True

namespace Converter

/-- An attempt at a file whose conversion has a given outcome. -/
def attemptOf (r : Run) (file : List String) (outcome : Except Incident String) (w : Workshop σ) :
    Except Incident (Mapping × String) × Workshop σ :=
  match sourceText w.tree (Workshop.folderOf r.project ++ file) with
  | .error incident => (.error incident, w)
  | .ok content =>
    match outcome with
    | .error incident => (.error incident, w)
    | .ok code =>
      let (result, w) := deliver r (.ofFile (Path.join file) content) code w
      (result.map fun m => (m, code), w)

end Converter

/-- A move of a conversion with a strategy, and the attempt that it makes if it makes one.  What
else the strategy looks at may change at every attempt. -/
inductive Played (c : Converter σ) (strategy : Strategy) :
    Move → Option Trial → Run → Workshop σ → Run → Workshop σ → Prop
  | dispatch {r r' : Run} {w : Workshop σ} (h : Converter.dispatch r w = some r') :
      Played c strategy .dispatch none r w r' w
  | converted {r : Run} {w w' : Workshop σ} {place n : Nat} {file : List String}
      {outcome : Except Incident String} {m : Mapping} {code : String} (s : σ)
      (ht : r.tasks[place]? = some ⟨file, .waiting n⟩) (hs : strategy file n outcome)
      (h : Converter.attemptOf r file outcome { w with service := s } = (.ok (m, code), w')) :
      Played c strategy (.attempt place) (some ⟨file, .ok (m, code)⟩) r w
        (Converter.setStanding r place file (.converted m)) w'
  | missed {r : Run} {w w' : Workshop σ} {place n : Nat} {file : List String}
      {outcome : Except Incident String} {cause : Incident} (s : σ)
      (ht : r.tasks[place]? = some ⟨file, .waiting n⟩) (hs : strategy file n outcome)
      (h : Converter.attemptOf r file outcome { w with service := s } = (.error cause, w')) :
      Played c strategy (.attempt place) (some ⟨file, .error cause⟩) r w
        (Converter.setStanding r place file (c.afterFailure n cause w').1)
        (c.afterFailure n cause w').2
  | settle {r r' : Run} {w w' : Workshop σ} {place : Nat}
      (h : Converter.settleFile place r w = some (r', w')) :
      Played c strategy (.settle place) none r w r' w'

namespace Converter

variable {r : Run} {file : List String} {outcome : Except Incident String} {w w' : Workshop σ}
  {result : Except Incident (Mapping × String)}

/-- An attempt cannot read its file, has no text to write, or delivers it. -/
theorem attemptOf_cases (h : attemptOf r file outcome w = (result, w')) :
    (∃ cause, result = .error cause ∧ w' = w) ∨
      ∃ content code delivered,
        sourceText w.tree (Workshop.folderOf r.project ++ file) = .ok content ∧
        outcome = .ok code ∧
        deliver r (.ofFile (Path.join file) content) code w = (delivered, w') ∧
        result = delivered.map fun m => (m, code) := by
  unfold attemptOf at h
  cases hread : sourceText w.tree (Workshop.folderOf r.project ++ file) with
  | error cause =>
      rw [hread] at h
      cases h
      exact .inl ⟨cause, rfl, rfl⟩
  | ok content =>
      rw [hread] at h
      cases outcome with
      | error cause =>
          cases h
          exact .inl ⟨cause, rfl, rfl⟩
      | ok code =>
          cases h
          exact .inr ⟨content, code, _, rfl, rfl, rfl, rfl⟩

/-- An attempt with a given outcome is one that may be made. -/
theorem attempted_of_attemptOf {s : σ}
    (h : attemptOf r file outcome { w with service := s } = (result, w')) :
    Attempted r file w result w' := by
  rcases attemptOf_cases h with ⟨cause, rfl, rfl⟩ | ⟨content, code, delivered, -, -, hd, rfl⟩
  · exact .unconverted cause s
  · cases delivered with
    | ok m => exact .delivered content code s hd
    | error cause =>
        have hunwritten : Attempted r file w (.error cause) _ := .unwritten cause content code s
        rw [hd] at hunwritten
        exact hunwritten

end Converter

theorem Played.moved {c : Converter σ} {strategy : Strategy} {m : Move} {trial : Option Trial}
    {r r' : Run} {w w' : Workshop σ} (h : Played c strategy m trial r w r' w') :
    Moved c m trial r w r' w' := by
  cases h with
  | dispatch h => exact .dispatch h
  | converted s ht hs h => exact .converted ht (Converter.attempted_of_attemptOf h)
  | missed s ht hs h => exact .missed ht (Converter.attempted_of_attemptOf h)
  | settle h => exact .settle h

/-! ### The moves of a converter -/

namespace Converter

variable (settings : Settings) (parser : SourceParser) (service : Service σ)

/-- A conversion of a text changes nothing but what the service keeps. -/
theorem convert_ofService (code fileName : String) (w : Workshop σ) :
    ∃ s, ((ofService settings parser service).textConverter.convert code fileName w).2 =
      { w with service := s } := by
  unfold ofService TextConverter.convert
  by_cases h : settings.useAi = true
  · simp only [h]
    exact ⟨_, rfl⟩
  · simp only [h]
    exact ⟨w.service, rfl⟩

/-- What the conversion of a file comes to when its text is read from a workshop. -/
def outcomeOf (c : Converter σ) (r : Run) (file : List String) (w : Workshop σ) :
    Except Incident String := do
  let content ← sourceText w.tree (Workshop.folderOf r.project ++ file)
  (c.textConverter.convert content (Path.join file) w).1.result

theorem outcomeOf_of_sourceText {c : Converter σ} {r : Run} {file : List String} {w : Workshop σ}
    {content : String}
    (h : sourceText w.tree (Workshop.folderOf r.project ++ file) = .ok content) :
    c.outcomeOf r file w = (c.textConverter.convert content (Path.join file) w).1.result := by
  unfold outcomeOf
  rw [h]
  rfl

/-- A code is the outcome of the text of a file that has been read. -/
theorem outcomeOf_ok {c : Converter σ} {r : Run} {file : List String} {w : Workshop σ}
    {code : String} (h : c.outcomeOf r file w = .ok code) : ∃ content,
      sourceText w.tree (Workshop.folderOf r.project ++ file) = .ok content ∧
        (c.textConverter.convert content (Path.join file) w).1.result = .ok code := by
  cases hread : sourceText w.tree (Workshop.folderOf r.project ++ file) with
  | error cause =>
      unfold outcomeOf at h
      rw [hread] at h
      cases h
  | ok content =>
      rw [outcomeOf_of_sourceText hread] at h
      exact ⟨content, rfl, h⟩

/-- An attempt of a converter has the outcome that the conversion of its text has. -/
theorem exists_attemptOf (r : Run) (file : List String) (w : Workshop σ) :
    ∃ s result, attemptOf r file ((ofService settings parser service).outcomeOf r file w)
        { w with service := s } =
        (result, ((ofService settings parser service).attempt r file w).2) ∧
      ((ofService settings parser service).attempt r file w).1 = result.map Prod.fst := by
  unfold attempt attemptOf
  dsimp only
  cases hread : sourceText w.tree (Workshop.folderOf r.project ++ file) with
  | error cause => exact ⟨w.service, .error cause, rfl, rfl⟩
  | ok content =>
      rw [outcomeOf_of_sourceText hread]
      obtain ⟨s, hs⟩ := convert_ofService settings parser service content (Path.join file) w
      cases hconvert : (ofService settings parser service).textConverter.convert content
        (Path.join file) w with
      | mk outcome w₁ =>
          rw [hconvert] at hs
          obtain rfl : w₁ = { w with service := s } := hs
          dsimp only
          rw [hconvert]
          dsimp only
          refine ⟨s, ?_⟩
          cases hresult : outcome.result with
          | error cause => exact ⟨.error cause, rfl, rfl⟩
          | ok code =>
              dsimp only
              refine ⟨_, rfl, ?_⟩
              cases (deliver r (.ofFile (Path.join file) content) code
                { w with service := s }).1 <;> rfl

/-- Every move of a converter is one with each strategy that may have the outcome of its attempt. -/
theorem played_of_step {m : Move} {r r' : Run} {w w' : Workshop σ} {strategy : Strategy}
    (h : (ofService settings parser service).step m r w = some (r', w'))
    (hstrategy : ∀ place file n, m = .attempt place →
      r.tasks[place]? = some ⟨file, .waiting n⟩ →
      strategy file n ((ofService settings parser service).outcomeOf r file w)) :
    ∃ trial, Played (ofService settings parser service) strategy m trial r w r' w' := by
  cases m with
  | dispatch =>
      obtain ⟨r₁, hr, heq⟩ := Option.map_eq_some_iff.mp h
      cases heq
      exact ⟨none, .dispatch hr⟩
  | settle place => exact ⟨none, .settle h⟩
  | attempt place =>
      change (ofService settings parser service).tryFile place r w = _ at h
      unfold tryFile at h
      cases ht : r.tasks[place]? with
      | none => simp [ht] at h
      | some task =>
          obtain ⟨file, standing⟩ := task
          cases standing with
          | waiting n =>
              obtain ⟨s, result, hattempt, hresult⟩ :=
                exists_attemptOf settings parser service r file w
              have hs := hstrategy place file n rfl ht
              simp only [ht] at h
              cases hmade : (ofService settings parser service).attempt r file w with
              | mk made w₁ =>
                  rw [hmade] at hattempt hresult h
                  cases result with
                  | ok done =>
                      obtain rfl : made = .ok done.1 := hresult
                      cases h
                      exact ⟨some ⟨file, .ok done⟩, .converted s ht hs hattempt⟩
                  | error cause =>
                      obtain rfl : made = .error cause := hresult
                      cases h
                      exact ⟨some ⟨file, .error cause⟩, .missed s ht hs hattempt⟩
          | _ => simp [ht] at h

/-- Every move of a converter is one of those that are considered here. -/
theorem moved_of_step {m : Move} {r r' : Run} {w w' : Workshop σ}
    (h : (ofService settings parser service).step m r w = some (r', w')) :
    ∃ trial, Moved (ofService settings parser service) m trial r w r' w' := by
  have hplayed : ∃ trial, Played (ofService settings parser service) .free m trial r w r' w' :=
    played_of_step settings parser service h fun _ _ _ _ _ => trivial
  obtain ⟨trial, hplayed⟩ := hplayed
  exact ⟨trial, hplayed.moved⟩

end Converter

/-! ### What a move leaves alone -/

namespace Converter

variable (r : Run) (m : Mapping) (code : String) (w : Workshop σ)

theorem deliver_ledger : (deliver r m code w).2.ledger = w.ledger := by
  unfold deliver
  dsimp only
  split <;> rfl

theorem deliver_mappings : (deliver r m code w).2.mappings = w.mappings := by
  unfold deliver
  dsimp only
  split <;> rfl

variable (c : Converter σ) (n : Nat) (cause : Incident)

theorem afterFailure_ledger : (c.afterFailure n cause w).2.ledger = w.ledger := by
  unfold afterFailure
  split
  · rfl
  · split <;> rfl

theorem afterFailure_mappings : (c.afterFailure n cause w).2.mappings = w.mappings := by
  unfold afterFailure
  split
  · rfl
  · split <;> rfl

theorem afterFailure_tree : (c.afterFailure n cause w).2.tree = w.tree := by
  unfold afterFailure
  split
  · rfl
  · split <;> rfl

theorem afterFailure_claims : (c.afterFailure n cause w).2.claims = w.claims := by
  unfold afterFailure
  split
  · rfl
  · split <;> rfl

/-- A file is attempted again as long as attempts are left, unless the program is told to end. -/
theorem afterFailure_standing (h : cause.isInterruption = false) :
    (c.afterFailure n cause w).1 =
      if n < c.settings.maxAttempts then .waiting (n + 1) else .failed cause := by
  unfold afterFailure Retry.Policy.again? Settings.retryPolicy
  rw [h]
  by_cases hn : n < c.settings.maxAttempts
  · simp [hn]
  · simp [hn]

end Converter

theorem Attempted.ledger {r : Run} {file : List String} {w w' : Workshop σ}
    {result : Except Incident (Mapping × String)} (h : Attempted r file w result w') :
    w'.ledger = w.ledger := by
  cases h with
  | unread cause => rfl
  | unconverted cause s => rfl
  | unwritten cause content part s => rw [Converter.deliver_ledger]
  | delivered content code s h =>
      have hledger := Converter.deliver_ledger r (.ofFile (Path.join file) content) code
        { w with service := s }
      rw [h] at hledger
      exact hledger

theorem Attempted.mappings {r : Run} {file : List String} {w w' : Workshop σ}
    {result : Except Incident (Mapping × String)} (h : Attempted r file w result w') :
    w'.mappings = w.mappings := by
  cases h with
  | unread cause => rfl
  | unconverted cause s => rfl
  | unwritten cause content part s => rw [Converter.deliver_mappings]
  | delivered content code s h =>
      have hmappings := Converter.deliver_mappings r (.ofFile (Path.join file) content) code
        { w with service := s }
      rw [h] at hmappings
      exact hmappings

/-! ### The files that are left

Every file of a conversion stands in the chunk at hand or in a chunk still to be dispatched, until
it is settled.  Only a settlement makes their number smaller, unless the conversion is stopped. -/

namespace Run

/-- The files that are not settled yet. -/
def left (r : Run) : Nat := r.tasks.countP (!·.isSettled) + r.queue.flatten.length

/-- All files have been settled. -/
theorem left_eq_zero_iff (r : Run) :
    r.left = 0 ↔ (∀ t ∈ r.tasks, t.isSettled = true) ∧ ∀ chunk ∈ r.queue, chunk = [] := by
  unfold left
  rw [Nat.add_eq_zero_iff, List.countP_eq_zero, List.length_eq_zero_iff, List.flatten_eq_nil_iff]
  simp

/-- A file that was not settled is one less if it is now. -/
theorem left_setStanding {r : Run} {place : Nat} {t : Task} (ht : r.tasks[place]? = some t)
    (hunsettled : t.isSettled = false) (standing : Standing) :
    r.left = (Converter.setStanding r place t.file standing).left +
      if (⟨t.file, standing⟩ : Task).isSettled then 1 else 0 := by
  obtain ⟨hlt, hget⟩ := List.getElem?_eq_some_iff.mp ht
  have hpos : 0 < r.tasks.countP (!·.isSettled) :=
    List.countP_pos_iff.mpr ⟨t, hget ▸ List.getElem_mem hlt, by simp [hunsettled]⟩
  unfold left Converter.setStanding
  dsimp only
  rw [List.countP_set hlt, hget, hunsettled]
  cases (⟨t.file, standing⟩ : Task).isSettled with
  | true =>
      simp only [Bool.not_false, Bool.not_true, if_true, Bool.false_eq_true, if_false]
      omega
  | false =>
      simp only [Bool.not_false, if_true, Bool.false_eq_true, if_false]
      omega

end Run

namespace Converter

variable {r r' : Run} {w w' : Workshop σ} {place : Nat}

/-- A dispatch takes the next chunk, or none at all if the conversion was stopped. -/
theorem dispatch_cases (h : dispatch r w = some r') :
    r.tasks.all Task.isSettled = true ∧ ∃ chunk rest, r.queue = chunk :: rest ∧
      (w.ledger.isStopped r.project = true ∧ r' = { r with tasks := [], queue := [] } ∨
        w.ledger.isStopped r.project = false ∧
          r' = { r with tasks := chunk.map fun file => ⟨file, .waiting 1⟩, queue := rest }) := by
  unfold dispatch at h
  split at h
  · rename_i chunk rest hall hqueue
    refine ⟨hall, chunk, rest, hqueue, ?_⟩
    by_cases hstopped : w.ledger.isStopped r.project = true
    · rw [if_pos hstopped] at h
      cases h
      exact .inl ⟨hstopped, rfl⟩
    · rw [if_neg hstopped] at h
      cases h
      exact .inr ⟨Bool.eq_false_iff.mpr hstopped, rfl⟩
  · cases h

/-- While the record is in progress the next chunk is taken. -/
theorem dispatch_of_inProgress {chunk : List (List String)} {rest : List (List (List String))}
    (hall : ∀ t ∈ r.tasks, t.isSettled = true) (hqueue : r.queue = chunk :: rest)
    (hstatus : (w.record r.project).status = .inProgress) :
    dispatch r w =
      some { r with tasks := chunk.map fun file => ⟨file, .waiting 1⟩, queue := rest } := by
  unfold dispatch
  rw [List.all_eq_true.mpr hall, hqueue]
  dsimp only
  rw [Workshop.isStopped_of_inProgress hstatus]
  rfl

/-- A conversion whose record is in progress completes it in the end. -/
theorem conclude_of_inProgress {project : String}
    (hstatus : (w.record project).status = .inProgress) :
    conclude project w = ((w.complete project).2.record project, (w.complete project).2) := by
  unfold conclude
  rw [Workshop.isStopped_of_inProgress hstatus]
  rfl

/-- A settlement enters the mapping or the failure of a file that has one. -/
theorem settleFile_cases (h : settleFile place r w = some (r', w')) :
    (∃ file m, r.tasks[place]? = some ⟨file, .converted m⟩ ∧
      r' = setStanding r place file .settled ∧
      w' = ((w.addMapping r.project m).settle r.project none).2) ∨
    ∃ file cause, r.tasks[place]? = some ⟨file, .failed cause⟩ ∧
      r' = setStanding r place file .settled ∧
      w' = (w.settle r.project (some (FileFailure.toDocument ⟨Path.join file, cause.text⟩))).2 := by
  unfold settleFile at h
  split at h
  · rename_i file m ht
    cases h
    exact .inl ⟨file, m, ht, rfl, rfl⟩
  · rename_i file cause ht
    cases h
    exact .inr ⟨file, cause, ht, rfl, rfl⟩
  · cases h

theorem settleFile_run (h : settleFile place r w = some (r', w')) :
    ∃ file, r' = setStanding r place file .settled := by
  rcases settleFile_cases h with ⟨file, m, -, hr', -⟩ | ⟨file, cause, -, hr', -⟩
  · exact ⟨file, hr'⟩
  · exact ⟨file, hr'⟩

theorem settleFile_tree (h : settleFile place r w = some (r', w')) : w'.tree = w.tree := by
  rcases settleFile_cases h with ⟨file, m, -, -, rfl⟩ | ⟨file, cause, -, -, rfl⟩
  · exact Workshop.enter_tree _
  · exact Workshop.enter_tree _

theorem settleFile_claims (h : settleFile place r w = some (r', w')) : w'.claims = w.claims := by
  rcases settleFile_cases h with ⟨file, m, -, -, rfl⟩ | ⟨file, cause, -, -, rfl⟩
  · exact Workshop.enter_claims _
  · exact Workshop.enter_claims _

end Converter

end PhpMigration
