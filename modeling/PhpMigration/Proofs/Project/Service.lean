/-
What a conversion owes to the service that it asks.

A service is asked about a text before the text is converted here, and what it says matters only if
there is code in it.  So a conversion whose service fails at every text, or replies without code,
does at every step what a conversion does that asks nobody, and leaves the same workshop behind but
for what the service keeps for itself (`Converter.drive_withAi`).

What is written for a file comes of the reading at which it succeeded: it is the code in the reply
to the prompt with its text, or what its text is converted to here, and nothing that was said about
another file.
-/
import PhpMigration.Proofs.Project.Journey

namespace PhpMigration

variable {σ : Type}

/-! ### Readings -/

/-- The settings with which a service may be asked, or may not. -/
def Settings.withAi (s : Settings) (useAi : Bool) : Settings := { s with useAi }

/-- What the service says about a text, if it is asked. -/
def TextConverter.reply? {α : Type} (t : TextConverter α) (code : String) (s : α) :
    Option (Except Incident String) :=
  match t.useAi, t.service with
  | true, some service => some (service (buildPrompt code) s).1
  | _, _ => none

/-- A file as an attempt reads it, and what the service says about its text, if it is asked. -/
structure Reading where
  file : List String
  content : String
  reply : Option (Except Incident String)

namespace Reading

/-- The service has no code to give: it is not asked, it fails, or there is no code in its reply. -/
def IsLost (reading : Reading) : Prop :=
  match reading.reply with
  | none => True
  | some (.ok reply) => Fence.extract reply = ""
  | some (.error cause) => ∃ failure, cause = .failure failure

/-- The code is that in the reply, or what the text is converted to here. -/
def Yields {α : Type} (t : TextConverter α) (reading : Reading) (code : String) : Prop :=
  (∃ reply, reading.reply = some (.ok reply) ∧ Fence.extract reply = code ∧ code ≠ "") ∨
    t.convertLocally reading.content (Path.join reading.file) = .ok code

end Reading

namespace TextConverter

variable {α : Type} {t : TextConverter α} {code fileName converted : String} {s : α}

theorem fallBack_result (t : TextConverter α) (code fileName : String) (before : List Warning) :
    (t.fallBack code fileName before).result = t.convertLocally code fileName := by
  unfold fallBack
  cases t.convertLocally code fileName <;> rfl

/-- A text is converted to the code in the reply, or here. -/
theorem convert_cases (h : (t.convert code fileName s).1.result = .ok converted) :
    (∃ reply, t.reply? code s = some (.ok reply) ∧ Fence.extract reply = converted ∧
      converted ≠ "") ∨ t.convertLocally code fileName = .ok converted := by
  have hasked : ∀ service, t.useAi = true → t.service = some service →
      t.reply? code s = some (service (buildPrompt code) s).1 := by
    intro service huse hservice
    unfold reply?
    rw [huse, hservice]
  unfold convert at h
  split at h
  · rename_i service huse hservice
    rw [hasked service huse hservice]
    dsimp only at h
    cases hreply : (service (buildPrompt code) s).1 with
    | ok reply =>
        rw [hreply] at h
        unfold afterReply at h
        dsimp only at h
        split at h
        · rw [fallBack_result] at h
          exact .inr h
        · rename_i hcode
          cases h
          refine .inl ⟨reply, rfl, rfl, fun hempty => hcode ?_⟩
          rw [hempty]
          rfl
    | error cause =>
        rw [hreply] at h
        cases cause with
        | failure failure => exact .inr ((fallBack_result ..).symm.trans h)
        | _ => cases h
  · rw [fallBack_result] at h
    exact .inr h

/-- A text about which the service has nothing to give is converted here. -/
theorem convert_result_of_isLost (fileName : String) {file : List String}
    (h : Reading.IsLost ⟨file, code, t.reply? code s⟩) :
    (t.convert code fileName s).1.result = t.convertLocally code fileName := by
  unfold Reading.IsLost reply? at h
  unfold convert
  split
  · rename_i service huse hservice
    rw [huse, hservice] at h
    dsimp only at h ⊢
    cases hreply : (service (buildPrompt code) s).1 with
    | ok reply =>
        rw [hreply] at h
        unfold afterReply
        dsimp only at h ⊢
        rw [h]
        exact fallBack_result ..
    | error cause =>
        rw [hreply] at h
        obtain ⟨failure, rfl⟩ := h
        exact fallBack_result ..
  · exact fallBack_result ..

/-- Then it does not matter whether the service is asked. -/
theorem convert_of_isLost {β : Type} {other : TextConverter β} {s₁ s₂ : β} (fileName : String)
    {file : List String} {outcome : Outcome String}
    (h : Reading.IsLost ⟨file, code, t.reply? code s⟩)
    (hconvert : other.convert code fileName s₁ = (outcome, s₂)) (hparser : other.parser = t.parser)
    (hnobody : other.useAi = false) :
    outcome.result = (t.convert code fileName s).1.result ∧ s₂ = s₁ := by
  have hlocal : other.convertLocally code fileName = t.convertLocally code fileName := by
    unfold convertLocally read
    rw [hparser]
  unfold convert at hconvert
  rw [hnobody] at hconvert
  obtain ⟨rfl, rfl⟩ := Prod.mk.inj hconvert
  rw [fallBack_result, hlocal, convert_result_of_isLost fileName h]
  exact ⟨rfl, rfl⟩

end TextConverter

namespace Converter

/-- What an attempt reads that is made at the file at a place. -/
def reading? (c : Converter σ) (place : Nat) (r : Run) (w : Workshop σ) : Option Reading :=
  match r.tasks[place]? with
  | some ⟨file, .waiting _⟩ =>
    match sourceText w.tree (Workshop.folderOf r.project ++ file) with
    | .ok content => some ⟨file, content, c.textConverter.reply? content w⟩
    | .error _ => none
  | _ => none

/-- What is read when something is done. -/
def readingAt (c : Converter σ) : Act → Stage × Workshop σ → Option Reading
  | .move (.attempt place), (.moving r, w) => c.reading? place r w
  | _, _ => none

theorem readingAt_attempt {c : Converter σ} {place n : Nat} {r : Run} {w : Workshop σ}
    {file : List String} {content : String} (ht : r.tasks[place]? = some ⟨file, .waiting n⟩)
    (hread : sourceText w.tree (Workshop.folderOf r.project ++ file) = .ok content) :
    c.readingAt (.move (.attempt place)) (.moving r, w) =
      some ⟨file, content, c.textConverter.reply? content w⟩ := by
  show c.reading? place r w = _
  unfold reading?
  rw [ht]
  dsimp only
  rw [hread]

/-- What is read when one thing is done after another. -/
def readings (c : Converter σ) (project : String) : List Act → Stage × Workshop σ → List Reading
  | [], _ => []
  | a :: rest, s => (c.readingAt a s).toList ++
    match c.act project a s with
    | some next => c.readings project rest next
    | none => []

end Converter

/-! ### A conversion that asks nobody -/

/-- The workshop if the service keeps something else. -/
def Workshop.keeping (t : σ) (w : Workshop σ) : Workshop σ := { w with service := t }

namespace Workshop

variable (t : σ) (project : String) (w : Workshop σ)

theorem enter_keeping (entry : Ledger → Except Misfit (Record × Ledger)) :
    (w.keeping t).enter entry = (w.enter entry).map id (keeping t) := by
  unfold enter keeping
  dsimp only
  cases entry w.ledger <;> rfl

theorem update_keeping (change : Change) :
    (w.keeping t).update project change = (w.update project change).keeping t := by
  unfold update
  rw [enter_keeping]
  rfl

theorem settle_keeping (failure : Option Value) :
    (w.keeping t).settle project failure = (w.settle project failure).map id (keeping t) :=
  enter_keeping t w _

theorem complete_keeping :
    (w.keeping t).complete project = (w.complete project).map id (keeping t) :=
  enter_keeping t w _

theorem fail_keeping (message : String) :
    (w.keeping t).fail project message = (w.fail project message).keeping t := by
  unfold fail
  rw [enter_keeping]
  rfl

theorem stop_keeping : (w.keeping t).stop project = (w.stop project).map id (keeping t) := by
  unfold stop
  dsimp only
  rw [enter_keeping]
  by_cases hhas : Table.has w.ledger project = true
  · rw [if_pos hhas]
    exact if_pos hhas
  · rw [if_neg hhas]
    exact if_neg hhas

end Workshop

namespace Converter

open Workshop (keeping)

variable (c : Converter σ) (t : σ) (project : String) (w : Workshop σ)

theorem deliver_keeping (r : Run) (m : Mapping) (code : String) :
    deliver r m code (w.keeping t) = (deliver r m code w).map id (keeping t) := by
  unfold deliver Workshop.claim keeping
  dsimp only
  split <;> rfl

theorem afterFailure_keeping (n : Nat) (cause : Incident) :
    c.afterFailure n cause (w.keeping t) = (c.afterFailure n cause w).map id (keeping t) := by
  unfold afterFailure keeping
  split
  · rfl
  · split <;> rfl

theorem settleFile_keeping (place : Nat) (r : Run) :
    settleFile place r (w.keeping t) = (settleFile place r w).map (Prod.map id (keeping t)) := by
  unfold settleFile
  split
  · show some (_, (((w.addMapping r.project _).keeping t).settle r.project none).2) = _
    rw [Workshop.settle_keeping]
    rfl
  · dsimp only
    rw [Workshop.settle_keeping]
    rfl
  · rfl

theorem laySkeleton_keeping :
    c.laySkeleton project (w.keeping t) = (c.laySkeleton project w).map id (keeping t) := by
  unfold laySkeleton keeping
  dsimp only
  split
  · rfl
  · split <;> rfl

theorem needFolder_keeping : needFolder project (w.keeping t) = needFolder project w := rfl

theorem needSources_keeping : c.needSources project (w.keeping t) = c.needSources project w := rfl

/-- What the service keeps does not matter to a step that is none of the moves. -/
theorem proceed_keeping (stage : Stage) : c.proceed project stage (w.keeping t) =
    (c.proceed project stage w).map (Prod.map id (keeping t)) := by
  cases stage with
  | begun =>
      unfold proceed
      dsimp only
      rw [Workshop.update_keeping, needFolder_keeping]
      cases needFolder project w <;> rfl
  | housed =>
      unfold proceed
      dsimp only
      rw [laySkeleton_keeping]
      cases c.laySkeleton project w with
      | mk result w₁ => cases result <;> rfl
  | laid output =>
      unfold proceed
      dsimp only
      rw [needSources_keeping]
      cases c.needSources project w <;> rfl
  | found output files =>
      unfold proceed
      dsimp only
      show some (_, ((w.forget project).keeping t).update project _) = _
      rw [Workshop.update_keeping]
      rfl
  | moving r =>
      unfold proceed
      dsimp only
      split
      · rfl
      · split
        · rfl
        · split
          · rfl
          · show (if w.ledger.isStopped project then _ else _) = _
            split <;> rfl
  | closing =>
      unfold proceed
      dsimp only
      rw [Workshop.complete_keeping]
      rfl
  | failing incident =>
      unfold proceed
      dsimp only
      rw [Workshop.fail_keeping]
      rfl
  | ended record => rfl
  | failed incident => rfl
  | lost cause => rfl

variable (settings : Settings) (parser : SourceParser) (service : Service σ)

/-- Nor does it matter whether the service may be asked. -/
theorem proceed_withAi (useAi : Bool) (stage : Stage) :
    (ofService (settings.withAi useAi) parser service).proceed project stage w =
      (ofService settings parser service).proceed project stage w := by
  cases stage <;> rfl

variable {settings parser service} {w}

/-- An attempt delivers what its text is converted to. -/
theorem attempt_of_convert {c : Converter σ} {r : Run} {file : List String} {content : String}
    {outcome : Outcome String} {w₁ : Workshop σ}
    (hread : sourceText w.tree (Workshop.folderOf r.project ++ file) = .ok content)
    (hconvert : c.textConverter.convert content (Path.join file) w = (outcome, w₁)) :
    c.attempt r file w =
      match outcome.result with
      | .error cause => (.error cause, w₁)
      | .ok code => deliver r (.ofFile (Path.join file) content) code w₁ := by
  unfold attempt
  cases hresult : outcome.result <;> simp only [hread, hconvert, hresult]

/-- An attempt at which the service has no code to give is made as if it were not asked. -/
theorem attempt_withAi (r : Run) (file : List String)
    (h : ∀ content, sourceText w.tree (Workshop.folderOf r.project ++ file) = .ok content →
      Reading.IsLost ⟨file, content,
        (ofService (settings.withAi true) parser service).textConverter.reply? content w⟩) :
    (ofService (settings.withAi false) parser service).attempt r file (w.keeping t) =
      ((ofService (settings.withAi true) parser service).attempt r file w).map id (keeping t) := by
  cases hread : sourceText w.tree (Workshop.folderOf r.project ++ file) with
  | error cause =>
      unfold attempt
      rw [show sourceText (w.keeping t).tree (Workshop.folderOf r.project ++ file) =
        .error cause from hread, hread]
      rfl
  | ok content =>
      obtain ⟨s, hs⟩ := convert_ofService (settings.withAi true) parser service content
        (Path.join file) w
      cases hon : (ofService (settings.withAi true) parser service).textConverter.convert content
        (Path.join file) w with
      | mk on w₁ =>
          cases hoff : (ofService (settings.withAi false) parser service).textConverter.convert
            content (Path.join file) (w.keeping t) with
          | mk off w' =>
              obtain ⟨hsame, hkept⟩ :=
                TextConverter.convert_of_isLost (Path.join file) (h content hread) hoff rfl rfl
              rw [hon] at hs hsame
              obtain rfl : w' = w.keeping t := hkept
              obtain rfl : w₁ = w.keeping s := hs
              rw [attempt_of_convert hread hon,
                attempt_of_convert (w := w.keeping t) hread hoff, hsame]
              cases on.result with
              | error cause => rfl
              | ok code =>
                  dsimp only
                  rw [deliver_keeping, deliver_keeping]
                  rfl

theorem tryFile_withAi (place : Nat) (r : Run)
    (h : ∀ reading ∈ (ofService (settings.withAi true) parser service).reading? place r w,
      reading.IsLost) :
    (ofService (settings.withAi false) parser service).tryFile place r (w.keeping t) =
      ((ofService (settings.withAi true) parser service).tryFile place r w).map
        (Prod.map id (keeping t)) := by
  unfold reading? at h
  unfold tryFile
  cases ht : r.tasks[place]? with
  | none => rfl
  | some task =>
      obtain ⟨file, standing⟩ := task
      cases standing with
      | waiting n =>
          rw [ht] at h
          dsimp only at h ⊢
          rw [attempt_withAi t r file fun content hcontent => h _ (by rw [hcontent]; rfl)]
          cases (ofService (settings.withAi true) parser service).attempt r file w with
          | mk result w₁ =>
              cases result with
              | ok m => rfl
              | error cause =>
                  show some (_, _) = _
                  rw [afterFailure_keeping]
                  rfl
      | _ => rfl

/-- So is everything else. -/
theorem act_withAi (a : Act) (stage : Stage)
    (h : ∀ reading ∈ (ofService (settings.withAi true) parser service).readingAt a (stage, w),
      reading.IsLost) :
    (ofService (settings.withAi false) parser service).act project a (stage, w.keeping t) =
      ((ofService (settings.withAi true) parser service).act project a (stage, w)).map
        (Prod.map id (keeping t)) := by
  cases a with
  | proceed =>
      show (ofService (settings.withAi false) parser service).proceed project stage
        (w.keeping t) = _
      rw [proceed_withAi, proceed_keeping, ← proceed_withAi project w settings parser service true]
      rfl
  | stop =>
      show some (stage, ((w.keeping t).stop project).2) = _
      rw [Workshop.stop_keeping]
      rfl
  | move m =>
      cases stage with
      | moving r =>
          unfold act step
          cases m with
          | dispatch =>
              show ((dispatch r w).map _).map _ = (((dispatch r w).map _).map _).map _
              cases dispatch r w <;> rfl
          | attempt place =>
              dsimp only
              rw [tryFile_withAi t place r h]
              cases (ofService (settings.withAi true) parser service).tryFile place r w <;> rfl
          | settle place =>
              dsimp only
              rw [settleFile_keeping]
              cases settleFile place r w <;> rfl
      | _ => rfl

/-- **A conversion whose service never has code to give takes the same steps as one that asks
nobody**, and leaves the same workshop behind but for what the service keeps. -/
theorem drive_withAi (acts : List Act) (stage : Stage)
    (h : ∀ reading ∈
      (ofService (settings.withAi true) parser service).readings project acts (stage, w),
      reading.IsLost) :
    (ofService (settings.withAi false) parser service).drive project acts (stage, w.keeping t) =
      ((ofService (settings.withAi true) parser service).drive project acts (stage, w)).map
        (Prod.map id (keeping t)) := by
  induction acts generalizing stage w with
  | nil => rfl
  | cons a rest ih =>
      unfold readings at h
      unfold drive
      rw [act_withAi t project a stage fun reading hreading =>
        h reading (List.mem_append_left _ (Option.mem_toList.mpr hreading))]
      cases hact : (ofService (settings.withAi true) parser service).act project a (stage, w) with
      | none => rfl
      | some next =>
          rw [hact] at h
          exact ih next.1 fun reading hreading => h reading (List.mem_append_right _ hreading)

end Converter

/-! ### What a file holds -/

section

variable {settings : Settings} {parser : SourceParser} {service : Service σ} {project : String}

/-- A move of a converter whose attempt succeeds writes a code that its reading yields. -/
theorem Converter.exists_moved_of_step {m : Move} {r r' : Run} {w w' : Workshop σ}
    (h : (ofService settings parser service).step m r w = some (r', w')) :
    ∃ trial, Moved (ofService settings parser service) m trial r w r' w' ∧
      ∀ t ∈ trial, ∀ m' code, t.result = .ok (m', code) →
        ∃ reading ∈ (ofService settings parser service).readingAt (.move m) (.moving r, w),
          reading.file = t.file ∧
            reading.Yields (ofService settings parser service).textConverter code := by
  obtain ⟨c, hc⟩ : ∃ c, c = ofService settings parser service := ⟨_, rfl⟩
  rw [← hc]
  have hplayed : ∃ trial, Played c (fun file _ outcome => ∀ code, outcome = .ok code →
      ∃ reading ∈ c.readingAt (.move m) (.moving r, w), reading.file = file ∧
        reading.Yields c.textConverter code) m trial r w r' w' := by
    rw [hc]
    refine played_of_step settings parser service h ?_
    rw [← hc]
    rintro place file n rfl ht code hcode
    obtain ⟨content, hread, hconvert⟩ := outcomeOf_ok hcode
    exact ⟨⟨file, content, c.textConverter.reply? content w⟩, readingAt_attempt ht hread, rfl,
      TextConverter.convert_cases hconvert⟩
  obtain ⟨trial, hplayed⟩ := hplayed
  refine ⟨trial, hplayed.moved, ?_⟩
  cases hplayed with
  | converted s ht hs h =>
      rintro t ⟨⟩ m' code ⟨⟩
      rcases attemptOf_cases h with ⟨cause, hcause, -⟩ | ⟨content, code', delivered, -, hok, -, hd⟩
      · cases hcause
      · cases delivered with
        | ok m => cases hd; exact hs _ hok
        | error cause => cases hd
  | missed s ht hs h => rintro t ⟨⟩ m' code hresult; cases hresult
  | _ => rintro t ⟨⟩

/-- The steps that a converter takes are a journey, and what its attempts write is what its readings
yield. -/
theorem Converter.exists_journey_of_drive_ofService {acts : List Act} {s : Passage σ}
    {stage : Stage} {w : Workshop σ}
    (h : (ofService settings parser service).drive project acts (s.stage, s.workshop) =
      some (stage, w)) :
    ∃ s', Journey (ofService settings parser service) project s s' ∧ s'.stage = stage ∧
      s'.workshop = w ∧ ∀ t ∈ s'.trials, t ∈ s.trials ∨ ∀ m code, t.result = .ok (m, code) →
        ∃ reading ∈ (ofService settings parser service).readings project acts (s.stage, s.workshop),
          reading.file = t.file ∧
            reading.Yields (ofService settings parser service).textConverter code := by
  induction acts generalizing s with
  | nil =>
      cases h
      exact ⟨s, .here, rfl, rfl, fun t ht => .inl ht⟩
  | cons a rest ih =>
      obtain ⟨next, hnext, hrest⟩ := Option.bind_eq_some_iff.mp h
      have hstep : ∃ s₁, Passed (ofService settings parser service) project s s₁ ∧
          next = (s₁.stage, s₁.workshop) ∧ ∀ t ∈ s₁.trials, t ∈ s.trials ∨
            ∀ m code, t.result = .ok (m, code) →
              ∃ reading ∈ (ofService settings parser service).readingAt a (s.stage, s.workshop),
                reading.file = t.file ∧
                  reading.Yields (ofService settings parser service).textConverter code := by
        obtain ⟨before, workshop, files, chunks, trials⟩ := s
        cases a with
        | proceed => exact ⟨_, .proceed hnext, rfl, fun t ht => .inl ht⟩
        | stop =>
            cases hnext
            exact ⟨_, .stop, rfl, fun t ht => .inl ht⟩
        | move m =>
            cases before with
            | moving r =>
                obtain ⟨⟨r', w'⟩, hmove, rfl⟩ := Option.map_eq_some_iff.mp hnext
                obtain ⟨trial, hmoved, hyields⟩ := exists_moved_of_step hmove
                refine ⟨_, .move rfl hmoved, rfl, fun t ht => ?_⟩
                rcases List.mem_append.mp ht with ht | ht
                · exact .inl ht
                · exact .inr (hyields t (Option.mem_toList.mp ht))
            | _ => cases hnext
      obtain ⟨s₁, hpassed, rfl, hfirst⟩ := hstep
      obtain ⟨s', hjourney, hstage, hworkshop, hlater⟩ := ih hrest
      refine ⟨s', (Journey.here.next hpassed).trans hjourney, hstage, hworkshop, fun t ht => ?_⟩
      unfold readings
      rw [hnext]
      rcases hlater t ht with ht | hyields
      · rcases hfirst t ht with ht | hyields
        · exact .inl ht
        · refine .inr fun m code hresult => ?_
          obtain ⟨reading, hreading, hrest⟩ := hyields m code hresult
          exact ⟨reading, List.mem_append_left _ (Option.mem_toList.mpr hreading), hrest⟩
      · refine .inr fun m code hresult => ?_
        obtain ⟨reading, hreading, hrest⟩ := hyields m code hresult
        exact ⟨reading, List.mem_append_right _ hreading, hrest⟩

end

/-- What is noted of the project is noted by this conversion, and not by one before it. -/
def Stage.IsConverting : Stage → Prop
  | .moving _ | .closing | .ended _ | .lost _ => True
  | _ => False

/-- Each mapping comes of a reading of its source, and leads to what this reading yields. -/
def Converter.HoldsOwn (c : Converter σ) (project : String) (acts : List Act) (w w' : Workshop σ) :
    Prop :=
  ∀ m ∈ w'.mappingsOf project, ∃ reading ∈ c.readings project acts (.begun, w),
    ∃ output code place, m.source = Path.join reading.file ∧
      reading.Yields c.textConverter code ∧ c.outputFolder project = .ok output ∧
      w'.tree.LeadsTo (output ++ Path.parts m.target) place (.file (Text.Utf8.encode code))

/-- A file that a mapping has been entered for was converted to what is held for it. -/
theorem IsTracked.exists_of_mem {maxAttempts : Nat} {path : String}
    {holds : Mapping → String → Prop} {results : List (Except Incident (Mapping × String))}
    {mappings : List Mapping} {standing : Standing} {m : Mapping}
    (h : IsTracked maxAttempts path holds results mappings standing) (hm : m ∈ mappings) :
    ∃ code, .ok (m, code) ∈ results ∧ holds m code := by
  rcases h with ⟨failures, hfares⟩ | ⟨-, rfl⟩
  · cases hfares with
    | entered h hholds =>
        obtain rfl := List.mem_singleton.mp hm
        exact ⟨_, List.mem_append_right _ (List.mem_singleton_self _), hholds⟩
    | _ => cases hm
  · cases hm

/-- **What a conversion notes of a file is what its own reading yields**, if there is no link in the
output. -/
theorem Converter.holdsOwn_of_drive {settings : Settings} {parser : SourceParser}
    {service : Service σ} {project : String} {w w' : Workshop σ} {acts : List Act} {stage : Stage}
    (h : (ofService settings parser service).drive project acts (.begun, w) = some (stage, w'))
    (hstage : stage.IsConverting) (hsound : w.tree.top.IsSound)
    (hplain : (ofService settings parser service).LaysPlain project w) :
    (ofService settings parser service).HoldsOwn project acts w w' := by
  obtain ⟨s, hjourney, rfl, rfl, htrials⟩ :=
    exists_journey_of_drive_ofService (s := Passage.start w) h
  have hcovers : ∃ output stands queue,
      s.Covers (ofService settings parser service) project w output stands queue := by
    have hon := hjourney.isOn hsound
    obtain ⟨stage, workshop, files, chunks, trials⟩ := s
    cases stage with
    | moving r =>
        obtain ⟨-, stands, -, hcovers⟩ := hon
        exact ⟨_, _, _, hcovers⟩
    | closing =>
        obtain ⟨output, stands, -, hcovers⟩ := hon
        exact ⟨_, _, _, hcovers⟩
    | ended record =>
        obtain ⟨output, stands, -, hcovers⟩ := hon
        exact ⟨_, _, _, hcovers⟩
    | lost cause => exact hon
    | _ => cases hstage
  obtain ⟨output, stands, queue, hcovers⟩ := hcovers
  intro m hm
  obtain ⟨t, ht, hsource⟩ := hcovers.carried.owned m hm
  obtain ⟨code, hresult, hdelivers⟩ := (hcovers.carried.tracked t ht).exists_of_mem
    (List.mem_filter.mpr ⟨hm, decide_eq_true hsource⟩)
  obtain ⟨trial, htrial, heq⟩ := List.mem_map.mp hresult
  obtain ⟨htrial, hfile⟩ := List.mem_filter.mp htrial
  obtain ⟨place, hwritten⟩ := (hdelivers.holds hplain).written
  rcases htrials trial htrial with hnone | hyields
  · cases hnone
  · obtain ⟨reading, hreading, hsame, hcode⟩ := hyields m code heq
    rw [← of_decide_eq_true hfile, ← hsame] at hsource
    exact ⟨reading, hreading, output, code, place, hsource, hcode, hcovers.folder, hwritten⟩

end PhpMigration
