/-
What a course of moves does with each file.

A file waits for its next attempt, is converted or has failed for good, and is then settled, and
each stage goes with what has come of the attempts so far and with what has been entered
(`Fares`).  A move takes one file a stage further and leaves all others as they are
(`Moved.advances`, `Balanced.advance`): its attempts, its mapping and its failure are told from
those of others by the text of its path, and what it has written is not written to for others.  So
all files fare as they stand at any time (`Course.balanced`), whatever the attempts come to and in
whatever order the moves are made.

Every move makes the weight of what is left smaller (`Moved.weight_lt`), which bounds a course.
-/
import Mathlib.Data.List.Nodup
import PhpMigration.Proofs.Project.Begin
import PhpMigration.Proofs.Project.Delivery

namespace PhpMigration

variable {σ : Type}

/-- Moves of a conversion, one after another, with the attempts that are made. -/
inductive Course (c : Converter σ) (r : Run) (w : Workshop σ) :
    List Move → List Trial → Run → Workshop σ → Prop
  | start : Course c r w [] [] r w
  | next {moves : List Move} {trials : List Trial} {m : Move} {trial : Option Trial}
      {r₁ r₂ : Run} {w₁ w₂ : Workshop σ} (h : Course c r w moves trials r₁ w₁)
      (hmove : Moved c m trial r₁ w₁ r₂ w₂) :
      Course c r w (moves ++ [m]) (trials ++ trial.toList) r₂ w₂

/-- What has come of the attempts at a file, in order. -/
def resultsOf (trials : List Trial) (file : List String) :
    List (Except Incident (Mapping × String)) :=
  (trials.filter fun t => t.file = file).map Trial.result

theorem resultsOf_append (trials more : List Trial) (file : List String) :
    resultsOf (trials ++ more) file = resultsOf trials file ++ resultsOf more file := by
  unfold resultsOf
  rw [List.filter_append, List.map_append]

/-- **How a file fares**: what has come of the attempts at it, the mappings and the failures that
have been entered for it, and how it stands.  A mapping is only entered for what the file `holds`,
and a failure carries the cause of the last attempt. -/
inductive Fares (maxAttempts : Nat) (path : String) (holds : Mapping → String → Prop) :
    List (Except Incident (Mapping × String)) → List Mapping → List FileFailure → Standing → Prop
  | waiting {causes : List Incident} (h : causes.length < maxAttempts) :
      Fares maxAttempts path holds (causes.map .error) [] [] (.waiting (causes.length + 1))
  | converted {causes : List Incident} {m : Mapping} {code : String}
      (h : causes.length < maxAttempts) (hholds : holds m code) :
      Fares maxAttempts path holds (causes.map .error ++ [.ok (m, code)]) [] [] (.converted m)
  | failed {causes : List Incident} {cause : Incident} (h : causes.length + 1 = maxAttempts) :
      Fares maxAttempts path holds ((causes ++ [cause]).map .error) [] [] (.failed cause)
  | entered {causes : List Incident} {m : Mapping} {code : String}
      (h : causes.length < maxAttempts) (hholds : holds m code) :
      Fares maxAttempts path holds (causes.map .error ++ [.ok (m, code)]) [m] [] .settled
  | reported {causes : List Incident} {cause : Incident} (h : causes.length + 1 = maxAttempts) :
      Fares maxAttempts path holds ((causes ++ [cause]).map .error) [] [⟨path, cause.text⟩] .settled

theorem Fares.mono {maxAttempts : Nat} {path : String} {holds holds' : Mapping → String → Prop}
    {results : List (Except Incident (Mapping × String))} {mappings : List Mapping}
    {failures : List FileFailure} {standing : Standing}
    (h : Fares maxAttempts path holds results mappings failures standing)
    (himp : ∀ m code, holds m code → holds' m code) :
    Fares maxAttempts path holds' results mappings failures standing := by
  cases h with
  | waiting h => exact .waiting h
  | converted h hholds => exact .converted h (himp _ _ hholds)
  | failed h => exact .failed h
  | entered h hholds => exact .entered h (himp _ _ hholds)
  | reported h => exact .reported h

section

variable {maxAttempts n : Nat} {path : String} {holds : Mapping → String → Prop}
  {results : List (Except Incident (Mapping × String))} {mappings : List Mapping}
  {failures : List FileFailure} {m : Mapping} {cause : Incident}

theorem Fares.of_waiting
    (h : Fares maxAttempts path holds results mappings failures (.waiting n)) :
    mappings = [] ∧ failures = [] ∧ ∃ causes : List Incident, results = causes.map .error ∧
      n = causes.length + 1 ∧ causes.length < maxAttempts := by
  cases h with
  | waiting h => exact ⟨rfl, rfl, _, rfl, rfl, h⟩

theorem Fares.of_converted
    (h : Fares maxAttempts path holds results mappings failures (.converted m)) :
    mappings = [] ∧ failures = [] ∧ ∃ (causes : List Incident) (code : String),
      results = causes.map .error ++ [.ok (m, code)] ∧ causes.length < maxAttempts ∧
        holds m code := by
  cases h with
  | converted h hholds => exact ⟨rfl, rfl, _, _, rfl, h, hholds⟩

theorem Fares.of_failed
    (h : Fares maxAttempts path holds results mappings failures (.failed cause)) :
    mappings = [] ∧ failures = [] ∧ ∃ causes : List Incident,
      results = (causes ++ [cause]).map .error ∧ causes.length + 1 = maxAttempts := by
  cases h with
  | failed h => exact ⟨rfl, rfl, _, rfl, h⟩

theorem Fares.not_abandoned
    (h : Fares maxAttempts path holds results mappings failures (.abandoned cause)) : False := by
  cases h

end

/-! ### All files of a conversion -/

/-- How all files of a conversion stand: those of the chunks before are settled, and those of the
chunks to come wait for their first attempt. -/
def Run.Shows (r : Run) (stands : List Task) : Prop :=
  ∃ past : List (List String), stands =
    past.map (fun file => ⟨file, .settled⟩) ++ r.tasks ++
      r.queue.flatten.map fun file => ⟨file, .waiting 1⟩

/-- What a move of a conversion does with one file. -/
inductive Advances (c : Converter σ) (r : Run) (file : List String) (w : Workshop σ) :
    Standing → Option Trial → Standing → Workshop σ → Prop
  | converted {n : Nat} {m : Mapping} {code : String} {w' : Workshop σ}
      (h : Attempted r file w (.ok (m, code)) w') :
      Advances c r file w (.waiting n) (some ⟨file, .ok (m, code)⟩) (.converted m) w'
  | missed {n : Nat} {cause : Incident} {w' : Workshop σ}
      (h : Attempted r file w (.error cause) w') :
      Advances c r file w (.waiting n) (some ⟨file, .error cause⟩)
        (c.afterFailure n cause w').1 (c.afterFailure n cause w').2
  | entered {m : Mapping} :
      Advances c r file w (.converted m) none .settled
        ((w.addMapping r.project m).settle r.project none).2
  | reported {cause : Incident} :
      Advances c r file w (.failed cause) none .settled
        (w.settle r.project (some (FileFailure.toDocument ⟨Path.join file, cause.text⟩))).2

namespace Run.Shows

variable {r : Run} {stands : List Task}

/-- A file of the chunk at hand is one of all files, and those before it are settled or stand before
it in the chunk. -/
theorem setStanding (h : r.Shows stands) {place : Nat} {t : Task} (ht : r.tasks[place]? = some t)
    (standing : Standing) : ∃ i, stands[i]? = some t ∧
      (Converter.setStanding r place t.file standing).Shows (stands.set i ⟨t.file, standing⟩) ∧
      ∀ u ∈ stands.take i, u.isSettled = true ∨ u ∈ r.tasks.take place := by
  obtain ⟨past, rfl⟩ := h
  obtain ⟨hlt, hget⟩ := List.getElem?_eq_some_iff.mp ht
  have hpast : (past.map fun file => (⟨file, .settled⟩ : Task)).length ≤ past.length + place := by
    simp
  have hplace : past.length + place -
      (past.map fun file => (⟨file, .settled⟩ : Task)).length = place := by simp
  have hfront : past.length + place <
      (past.map (fun file => (⟨file, .settled⟩ : Task)) ++ r.tasks).length := by simp; omega
  refine ⟨past.length + place, ?_, ⟨past, ?_⟩, fun u hu => ?_⟩
  · rw [List.getElem?_append_left hfront, List.getElem?_append_right hpast, hplace, ht]
  · rw [List.set_append_left _ _ hfront, List.set_append_right _ _ hpast, hplace]
    rfl
  · rw [List.take_append_of_le_length (Nat.le_of_lt hfront), List.take_append, hplace] at hu
    refine (List.mem_append.mp hu).imp_left fun hu => ?_
    obtain ⟨file, -, rfl⟩ := List.mem_map.mp (List.mem_of_mem_take hu)
    rfl

/-- When a chunk is dispatched, all files stand as they did. -/
theorem dispatch (h : r.Shows stands) (hall : r.tasks.all Task.isSettled = true)
    {chunk : List (List String)} {rest : List (List (List String))} (hq : r.queue = chunk :: rest) :
    Run.Shows { r with tasks := chunk.map fun file => ⟨file, .waiting 1⟩, queue := rest } stands := by
  obtain ⟨past, rfl⟩ := h
  have hsettled : r.tasks.map ((fun file => (⟨file, .settled⟩ : Task)) ∘ Task.file) = r.tasks := by
    refine (List.map_congr_left ?_).trans (List.map_id r.tasks)
    intro t ht
    have hone := List.all_eq_true.mp hall t ht
    obtain ⟨file, standing⟩ := t
    cases standing with
    | settled => rfl
    | _ => cases hone
  refine ⟨past ++ r.tasks.map Task.file, ?_⟩
  rw [hq, List.flatten_cons, List.map_append, List.map_append, List.map_map, hsettled]
  simp only [List.append_assoc]

end Run.Shows

/-- A move dispatches a chunk, or it takes one file of the chunk at hand further. -/
theorem Moved.dispatches_or_advances {c : Converter σ} {m : Move} {trial : Option Trial}
    {r r' : Run} {w w' : Workshop σ} (h : Moved c m trial r w r' w') :
    (m = .dispatch ∧ trial = none ∧ w' = w ∧ Converter.dispatch r w = some r') ∨
      m ≠ .dispatch ∧ ∃ (place : Nat) (t : Task) (standing' : Standing),
        r.tasks[place]? = some t ∧ r' = Converter.setStanding r place t.file standing' ∧
        Advances c r t.file w t.standing trial standing' w' := by
  cases h with
  | dispatch h => exact .inl ⟨rfl, rfl, rfl, h⟩
  | converted ht h => exact .inr ⟨nofun, _, _, _, ht, rfl, .converted h⟩
  | missed ht h => exact .inr ⟨nofun, _, _, _, ht, rfl, .missed h⟩
  | settle h =>
      rcases Converter.settleFile_cases h with ⟨file, m, ht, rfl, rfl⟩ | ⟨file, cause, ht, rfl, rfl⟩
      · exact .inr ⟨nofun, _, _, _, ht, rfl, .entered⟩
      · exact .inr ⟨nofun, _, _, _, ht, rfl, .reported⟩

/-- As long as the conversion is not stopped all files stand as they did when a chunk is
dispatched. -/
theorem Moved.advances {c : Converter σ} {m : Move} {trial : Option Trial} {r r' : Run}
    {w w' : Workshop σ} (h : Moved c m trial r w r' w')
    (hgoing : w.ledger.isStopped r.project = false) {stands : List Task} (hs : r.Shows stands) :
    r'.project = r.project ∧ r'.output = r.output ∧
      (trial = none ∧ w' = w ∧ r'.Shows stands ∨
        ∃ i file standing standing', stands[i]? = some ⟨file, standing⟩ ∧
          Advances c r file w standing trial standing' w' ∧
          r'.Shows (stands.set i ⟨file, standing'⟩)) := by
  rcases h.dispatches_or_advances with ⟨-, rfl, rfl, hdispatch⟩ | ⟨-, _, t, _, ht, rfl, hadvances⟩
  · obtain ⟨hall, chunk, rest, hq, ⟨hstopped, -⟩ | ⟨-, rfl⟩⟩ := Converter.dispatch_cases hdispatch
    · rw [hgoing] at hstopped
      cases hstopped
    · exact ⟨rfl, rfl, .inl ⟨rfl, rfl, hs.dispatch hall hq⟩⟩
  · obtain ⟨i, hi, hshows, -⟩ := hs.setStanding ht _
    exact ⟨rfl, rfl, .inr ⟨i, t.file, t.standing, _, hi, hadvances, hshows⟩⟩

/-! ### What is entered for a file -/

/-- The mapping that is entered for a file when it is settled. -/
def Standing.mapping? : Standing → Option Mapping
  | .converted m => some m
  | .waiting _ | .failed _ | .abandoned _ | .settled => none

/-- The failure that is entered for a file, given by its path, when it is settled. -/
def Standing.failure? (path : String) : Standing → Option FileFailure
  | .failed cause => some ⟨path, cause.text⟩
  | .waiting _ | .converted _ | .abandoned _ | .settled => none

/-- A file is not attempted again after an order to end the program. -/
theorem Converter.afterFailure_of_interruption (c : Converter σ) (n : Nat) {cause : Incident}
    (h : cause.isInterruption = true) (w : Workshop σ) :
    c.afterFailure n cause w = (.abandoned cause, w) := by
  unfold afterFailure
  rw [if_pos h]

namespace Advances

variable {c : Converter σ} {r : Run} {file : List String} {w w' : Workshop σ}
  {standing standing' : Standing} {trial : Option Trial}

theorem unsettled (h : Advances c r file w standing trial standing' w') :
    (⟨file, standing⟩ : Task).isSettled = false := by
  cases h <;> rfl

theorem trial_file (h : Advances c r file w standing trial standing' w') :
    ∀ t ∈ trial.toList, t.file = file := by
  intro t ht
  cases h with
  | converted h => exact congrArg Trial.file (List.mem_singleton.mp ht)
  | missed h => exact congrArg Trial.file (List.mem_singleton.mp ht)
  | entered => cases ht
  | reported => cases ht

/-- What a failed attempt leads to is not the end of a file. -/
theorem isSettled_afterFailure (c : Converter σ) (n : Nat) (cause : Incident) (w : Workshop σ) :
    (⟨file, (c.afterFailure n cause w).1⟩ : Task).isSettled = false := by
  by_cases hinterrupted : cause.isInterruption = true
  · rw [Converter.afterFailure_of_interruption c n hinterrupted]
    rfl
  · rw [Converter.afterFailure_standing w c n cause (Bool.eq_false_iff.mpr hinterrupted)]
    split <;> rfl

/-- One entry is made for a file when it is settled, and none before. -/
theorem entries (h : Advances c r file w standing trial standing' w') :
    standing.mapping?.toList.length + (standing.failure? (Path.join file)).toList.length =
      if (⟨file, standing'⟩ : Task).isSettled = true then 1 else 0 := by
  cases h with
  | converted h => rfl
  | missed h =>
      rw [isSettled_afterFailure]
      rfl
  | entered => rfl
  | reported => rfl

theorem mappings (h : Advances c r file w standing trial standing' w') :
    w'.mappingsOf r.project = w.mappingsOf r.project ++ standing.mapping?.toList := by
  unfold Workshop.mappingsOf
  cases h with
  | converted h =>
      rw [h.mappings]
      exact (List.append_nil _).symm
  | missed h =>
      rw [Converter.afterFailure_mappings, h.mappings]
      exact (List.append_nil _).symm
  | entered =>
      unfold Workshop.settle Workshop.addMapping
      rw [Workshop.enter_mappings, Table.find?_set, if_pos rfl]
      rfl
  | reported =>
      unfold Workshop.settle
      rw [Workshop.enter_mappings]
      exact (List.append_nil _).symm

/-- A record under way counts the file when it is settled. -/
theorem isUnderWay (h : Advances c r file w standing trial standing' w') {done total : Nat}
    {failures : List FileFailure} (hr : (w.record r.project).IsUnderWay done total failures) :
    (w'.record r.project).IsUnderWay
      (done + if (⟨file, standing'⟩ : Task).isSettled = true then 1 else 0) total
      (failures ++ (standing.failure? (Path.join file)).toList) := by
  have hunchanged : w'.ledger = w.ledger →
      (w'.record r.project).IsUnderWay done total (failures ++ []) := by
    intro hledger
    unfold Workshop.record
    rw [hledger, List.append_nil]
    exact hr
  cases h with
  | converted h => exact hunchanged h.ledger
  | missed h =>
      rw [isSettled_afterFailure]
      exact hunchanged (by rw [Converter.afterFailure_ledger, h.ledger])
  | entered =>
      rename_i m
      have hadded : ((w.addMapping r.project m).record r.project).IsUnderWay done total failures := hr
      exact Workshop.settle_of_isUnderWay hadded none
  | reported => exact Workshop.settle_of_isUnderWay hr (some ⟨_, _⟩)

open Workshop in
/-- Nothing is written but what the file holds. -/
theorem writesFor (h : Advances c r file w standing trial standing' w')
    (htidy : w.IsTidy r.project r.output) :
    WritesFor r.project r.output (Path.join file) w w' := by
  cases h with
  | converted h => exact h.writesFor htidy
  | missed h =>
      exact (h.writesFor htidy).congr (Converter.afterFailure_tree _ c _ _)
        (Converter.afterFailure_claims _ c _ _)
  | entered =>
      rename_i m
      exact .of_eq htidy (Workshop.enter_tree (w := w.addMapping r.project m) _)
        (Workshop.enter_claims (w := w.addMapping r.project m) _)
  | reported => exact .of_eq htidy (Workshop.enter_tree _) (Workshop.enter_claims _)

/-- A settlement changes neither the files nor the claims. -/
theorem tree_and_claims (h : Advances c r file w standing none standing' w') :
    w'.tree = w.tree ∧ w'.claims = w.claims := by
  cases h with
  | entered =>
      rename_i m
      exact ⟨Workshop.enter_tree (w := w.addMapping r.project m) _,
        Workshop.enter_claims (w := w.addMapping r.project m) _⟩
  | reported => exact ⟨Workshop.enter_tree _, Workshop.enter_claims _⟩

theorem attempted {m : Mapping} {code : String}
    (h : Advances c r file w standing (some ⟨file, .ok (m, code)⟩) standing' w') :
    Attempted r file w (.ok (m, code)) w' := by
  cases h with
  | converted h => exact h

end Advances

/-- **A file that is taken further fares as it stands then**, unless the program is told to end at
it, and then nothing has been entered for it. -/
theorem Fares.advance {c : Converter σ} {r : Run} {file : List String} {w w' : Workshop σ}
    {holds holds' : Mapping → String → Prop} {results : List (Except Incident (Mapping × String))}
    {mappings : List Mapping} {failures : List FileFailure} {standing standing' : Standing}
    {trial : Option Trial}
    (h : Fares c.settings.maxAttempts (Path.join file) holds results mappings failures standing)
    (ha : Advances c r file w standing trial standing' w')
    (hkept : trial = none → ∀ m code, holds m code → holds' m code)
    (hdone : ∀ m code, (⟨file, .ok (m, code)⟩ : Trial) ∈ trial → holds' m code) :
    (∃ cause, (⟨file, .error cause⟩ : Trial) ∈ trial ∧ cause.isInterruption = true ∧
        standing' = .abandoned cause ∧ mappings = []) ∨
      Fares c.settings.maxAttempts (Path.join file) holds'
        (results ++ trial.toList.map Trial.result) (mappings ++ standing.mapping?.toList)
        (failures ++ (standing.failure? (Path.join file)).toList) standing' := by
  cases ha with
  | converted hattempt =>
      obtain ⟨rfl, rfl, causes, rfl, -, hlt⟩ := h.of_waiting
      exact .inr (.converted hlt (hdone _ _ rfl))
  | missed hattempt =>
      rename_i n cause w₁
      obtain ⟨rfl, rfl, causes, rfl, rfl, hlt⟩ := h.of_waiting
      by_cases hinterrupted : cause.isInterruption = true
      · rw [Converter.afterFailure_of_interruption c _ hinterrupted]
        exact .inl ⟨cause, rfl, hinterrupted, rfl, rfl⟩
      · right
        have hresults : (causes.map .error : List (Except Incident (Mapping × String))) ++
            [.error cause] =
            (causes ++ [cause]).map .error := by
          rw [List.map_append]
          rfl
        rw [Converter.afterFailure_standing w₁ c _ cause (Bool.eq_false_iff.mpr hinterrupted)]
        show Fares _ _ _ (causes.map .error ++ [.error cause]) [] [] _
        rw [hresults]
        by_cases hmore : causes.length + 1 < c.settings.maxAttempts
        · have hlength : causes.length + 1 = (causes ++ [cause]).length := by simp
          rw [if_pos hmore, hlength]
          exact .waiting (hlength ▸ hmore)
        · rw [if_neg hmore]
          exact .failed (by omega)
  | entered =>
      obtain ⟨rfl, rfl, causes, code, rfl, hlt, hholds⟩ := h.of_converted
      rw [Option.toList_none, List.map_nil, List.append_nil]
      exact .inr (.entered hlt (hkept rfl _ _ hholds))
  | reported =>
      obtain ⟨rfl, rfl, causes, rfl, hcount⟩ := h.of_failed
      rw [Option.toList_none, List.map_nil, List.append_nil]
      exact .inr (.reported hcount)

/-! ### Files told from each other by their paths -/

section

variable {stands : List Task} {i : Nat} {file : List String} {standing standing' : Standing}

/-- Any other file has another path. -/
theorem path_ne_of_nodup (hdistinct : ((stands.map Task.file).map Path.join).Nodup)
    (hi : stands[i]? = some ⟨file, standing⟩) {t : Task} (ht : t ∈ stands.set i ⟨file, standing'⟩) :
    t = ⟨file, standing'⟩ ∨ t ∈ stands ∧ Path.join t.file ≠ Path.join file := by
  obtain ⟨hlt, hget⟩ := List.getElem?_eq_some_iff.mp hi
  obtain ⟨j, hj⟩ := List.mem_iff_getElem?.mp ht
  by_cases hij : i = j
  · subst hij
    rw [List.getElem?_set_self hlt] at hj
    exact .inl (Option.some.inj hj).symm
  · rw [List.getElem?_set_ne hij] at hj
    refine .inr ⟨List.mem_of_getElem? hj, ?_⟩
    intro heq
    have hsame : ((stands.map Task.file).map Path.join)[i]? =
        ((stands.map Task.file).map Path.join)[j]? := by
      rw [List.getElem?_map, List.getElem?_map, List.getElem?_map, List.getElem?_map, hi, hj]
      exact congrArg some heq.symm
    exact hij ((List.getElem?_inj (by simpa using hlt) hdistinct).mp hsame)

theorem map_file_set (hi : stands[i]? = some ⟨file, standing⟩) :
    (stands.set i ⟨file, standing'⟩).map Task.file = stands.map Task.file := by
  have hfile : (stands.map Task.file)[i]? = some file := by
    rw [List.getElem?_map, hi]
    rfl
  obtain ⟨hlt, hget⟩ := List.getElem?_eq_some_iff.mp hfile
  have hself := List.set_getElem_self hlt
  rw [hget] at hself
  rw [List.map_set]
  exact hself

/-- Attempts at one file are none at another. -/
theorem resultsOf_of_ne {trials : List Trial} (h : ∀ t ∈ trials, t.file = file)
    {other : List String} (hne : Path.join other ≠ Path.join file) :
    resultsOf trials other = [] := by
  refine congrArg (List.map Trial.result) (List.filter_eq_nil_iff.mpr ?_)
  intro t ht heq
  exact hne (congrArg Path.join ((of_decide_eq_true heq).symm.trans (h t ht)))

theorem resultsOf_of_eq {trials : List Trial} (h : ∀ t ∈ trials, t.file = file) :
    resultsOf trials file = trials.map Trial.result :=
  congrArg _ (List.filter_eq_self.mpr fun t ht => decide_eq_true (h t ht))

/-- The mappings of one file are none of another. -/
theorem filter_source_of_ne {new : List Mapping} {path other : String}
    (h : ∀ m ∈ new, m.source = path) (hne : other ≠ path) :
    new.filter (fun m => m.source = other) = [] :=
  List.filter_eq_nil_iff.mpr fun m hm heq => hne ((of_decide_eq_true heq).symm.trans (h m hm))

theorem filter_source_of_eq {new : List Mapping} {path : String}
    (h : ∀ m ∈ new, m.source = path) : new.filter (fun m => m.source = path) = new :=
  List.filter_eq_self.mpr fun m hm => decide_eq_true (h m hm)

end

/-! ### The balance -/

/-- Everything that has been entered belongs to a file, and every file fares as it stands. -/
structure Balanced (c : Converter σ) (project : String) (output : List String)
    (trials : List Trial) (failures : List FileFailure) (stands : List Task) (w : Workshop σ) :
    Prop where
  tidy : w.IsTidy project output
  distinct : ((stands.map Task.file).map Path.join).Nodup
  /-- The record counts the files that are settled. -/
  record : (w.record project).IsUnderWay (stands.countP Task.isSettled) stands.length failures
  /-- There is one entry for each of them. -/
  entries : (w.mappingsOf project).length + failures.length = stands.countP Task.isSettled
  owned : ∀ m ∈ w.mappingsOf project, m.source ∈ (stands.map Task.file).map Path.join
  blamed : ∀ f ∈ failures, f.file ∈ (stands.map Task.file).map Path.join
  tried : ∀ t ∈ trials, t.file ∈ stands.map Task.file
  fares : ∀ t ∈ stands, Fares c.settings.maxAttempts (Path.join t.file)
    (w.Holds project output (Path.join t.file)) (resultsOf trials t.file)
    ((w.mappingsOf project).filter fun m => m.source = Path.join t.file)
    (failures.filter fun f => f.file = Path.join t.file) t.standing

namespace Balanced

variable {c : Converter σ} {project : String} {output : List String} {trials trials' : List Trial}
  {failures failures' : List FileFailure} {stands : List Task} {w w' : Workshop σ} {i : Nat}
  {file : List String} {standing standing' : Standing}

theorem countP_set (hi : stands[i]? = some ⟨file, standing⟩)
    (hunsettled : (⟨file, standing⟩ : Task).isSettled = false) :
    (stands.set i ⟨file, standing'⟩).countP Task.isSettled = stands.countP Task.isSettled +
      if (⟨file, standing'⟩ : Task).isSettled = true then 1 else 0 := by
  obtain ⟨hlt, hget⟩ := List.getElem?_eq_some_iff.mp hi
  rw [List.countP_set hlt, hget, hunsettled]
  simp

/-- What is entered for one file leaves all others as they are. -/
theorem extend (h : Balanced c project output trials failures stands w)
    (hi : stands[i]? = some ⟨file, standing⟩)
    (hunsettled : (⟨file, standing⟩ : Task).isSettled = false)
    (hwrites : Workshop.WritesFor project output (Path.join file) w w')
    (attempts : List Trial) (new : List Mapping) (more : List FileFailure)
    (hattempts : ∀ t ∈ attempts, t.file = file) (hnew : ∀ m ∈ new, m.source = Path.join file)
    (hmore : ∀ f ∈ more, f.file = Path.join file)
    (hmappings : w'.mappingsOf project = w.mappingsOf project ++ new)
    (hrecord : (w'.record project).IsUnderWay
      (stands.countP Task.isSettled + (new.length + more.length)) stands.length (failures ++ more))
    (hsum : new.length + more.length =
      if (⟨file, standing'⟩ : Task).isSettled = true then 1 else 0)
    (hfile : Fares c.settings.maxAttempts (Path.join file) (w'.Holds project output (Path.join file))
      (resultsOf trials file ++ attempts.map Trial.result)
      (((w.mappingsOf project).filter fun m => m.source = Path.join file) ++ new)
      ((failures.filter fun f => f.file = Path.join file) ++ more) standing') :
    Balanced c project output (trials ++ attempts) (failures ++ more)
      (stands.set i ⟨file, standing'⟩) w' := by
  have hmap : (stands.set i ⟨file, standing'⟩).map Task.file = stands.map Task.file :=
    map_file_set hi
  have hcount : (stands.set i ⟨file, standing'⟩).countP Task.isSettled =
      stands.countP Task.isSettled + (new.length + more.length) := by
    rw [countP_set hi hunsettled, hsum]
  have hfile' : file ∈ stands.map Task.file := List.mem_map_of_mem (List.mem_of_getElem? hi)
  refine ⟨hwrites.tidy, ?_, ?_, ?_, ?_, ?_, ?_, ?_⟩
  · rw [hmap]
    exact h.distinct
  · rwa [hcount, List.length_set]
  · rw [hcount, hmappings, ← h.entries, List.length_append, List.length_append]
    omega
  · rw [hmap, hmappings]
    intro m hm
    rcases List.mem_append.mp hm with hm | hm
    · exact h.owned m hm
    · rw [hnew m hm]
      exact List.mem_map_of_mem hfile'
  · rw [hmap]
    intro f hf
    rcases List.mem_append.mp hf with hf | hf
    · exact h.blamed f hf
    · rw [hmore f hf]
      exact List.mem_map_of_mem hfile'
  · rw [hmap]
    intro t ht
    rcases List.mem_append.mp ht with ht | ht
    · exact h.tried t ht
    · rw [hattempts t ht]
      exact hfile'
  · intro t ht
    rw [resultsOf_append, hmappings, List.filter_append, List.filter_append]
    rcases path_ne_of_nodup h.distinct hi ht with rfl | ⟨ht, hne⟩
    · have hmore' : more.filter (fun f => f.file = Path.join file) = more :=
        List.filter_eq_self.mpr fun f hf => decide_eq_true (hmore f hf)
      rw [resultsOf_of_eq hattempts, filter_source_of_eq hnew, hmore']
      exact hfile
    · -- nothing of it is about any other file
      have hmore' : more.filter (fun f => f.file = Path.join t.file) = [] :=
        List.filter_eq_nil_iff.mpr fun f hf heq =>
          hne ((of_decide_eq_true heq).symm.trans (hmore f hf))
      rw [resultsOf_of_ne hattempts hne, filter_source_of_ne hnew hne, hmore', List.append_nil,
        List.append_nil, List.append_nil]
      exact (h.fares t ht).mono fun m code hholds => hwrites.others _ m code hne hholds

/-- **A move that takes one file further keeps the balance.** -/
theorem advance {r : Run} (h : Balanced c r.project r.output trials failures stands w)
    (hi : stands[i]? = some ⟨file, standing⟩) {trial : Option Trial}
    (ha : Advances c r file w standing trial standing' w')
    (hordinary : ∀ t ∈ trial, ∀ cause, t.result = .error cause → cause.isInterruption = false) :
    ∃ failures', Balanced c r.project r.output (trials ++ trial.toList) failures'
      (stands.set i ⟨file, standing'⟩) w' := by
  have hfares := h.fares _ (List.mem_of_getElem? hi)
  have hnew : ∀ m ∈ standing.mapping?.toList, m.source = Path.join file := by
    intro m hm
    cases standing with
    | converted m' =>
        obtain rfl := List.mem_singleton.mp hm
        obtain ⟨-, -, causes, code, -, -, hholds⟩ := hfares.of_converted
        exact hholds.source
    | _ => cases hm
  have hmore : ∀ f ∈ (standing.failure? (Path.join file)).toList, f.file = Path.join file := by
    intro f hf
    cases standing with
    | failed cause =>
        obtain rfl := List.mem_singleton.mp hf
        rfl
    | _ => cases hf
  refine ⟨failures ++ (standing.failure? (Path.join file)).toList,
    h.extend hi ha.unsettled (ha.writesFor h.tidy) trial.toList standing.mapping?.toList _
      ha.trial_file hnew hmore ha.mappings ?_ ha.entries ?_⟩
  · rw [ha.entries]
    exact ha.isUnderWay h.record
  · have hkept : trial = none → ∀ m code, w.Holds r.project r.output (Path.join file) m code →
        w'.Holds r.project r.output (Path.join file) m code := by
      rintro rfl m code hholds
      exact hholds.congr ha.tree_and_claims.1 ha.tree_and_claims.2
    have hdone : ∀ m code, (⟨file, .ok (m, code)⟩ : Trial) ∈ trial →
        w'.Holds r.project r.output (Path.join file) m code := by
      rintro m code rfl
      exact ha.attempted.holds h.tidy
    rcases hfares.advance ha hkept hdone with ⟨cause, htrial, hinterrupted, -⟩ | hfares'
    · rw [hordinary _ htrial cause rfl] at hinterrupted
      cases hinterrupted
    · exact hfares'

end Balanced

/-! ### All moves of a course -/

/-- No file of a conversion has made the program end. -/
def IsOrdinary (trials : List Trial) : Prop :=
  ∀ t ∈ trials, ∀ cause, t.result = .error cause → cause.isInterruption = false

theorem IsOrdinary.append {trials more : List Trial} (h : IsOrdinary (trials ++ more)) :
    IsOrdinary trials ∧ IsOrdinary more :=
  ⟨fun t ht => h t (List.mem_append_left _ ht), fun t ht => h t (List.mem_append_right _ ht)⟩

section

variable {c : Converter σ} {r r₁ r' : Run} {w w₁ w' : Workshop σ} {moves moves' : List Move}
  {trials trials' : List Trial} {stands : List Task}

theorem Course.trans (h : Course c r w moves trials r₁ w₁)
    (h' : Course c r₁ w₁ moves' trials' r' w') :
    Course c r w (moves ++ moves') (trials ++ trials') r' w' := by
  induction h' with
  | start => simpa using h
  | next _ hmove ih =>
      rw [← List.append_assoc, ← List.append_assoc]
      exact ih.next hmove

/-- **All files fare as they stand**, whatever the attempts have come to. -/
theorem Course.balanced (h : Course c r w moves trials r' w') (hordinary : IsOrdinary trials)
    (hshows : r.Shows stands) (hbalanced : Balanced c r.project r.output [] [] stands w) :
    r'.project = r.project ∧ r'.output = r.output ∧ ∃ failures stands', r'.Shows stands' ∧
      stands'.map Task.file = stands.map Task.file ∧
      Balanced c r.project r.output trials failures stands' w' := by
  induction h with
  | start => exact ⟨rfl, rfl, [], stands, hshows, rfl, hbalanced⟩
  | next h hmove ih =>
      rename_i trials m trial r₁ r₂ w₁ w₂
      obtain ⟨hbefore, hnew⟩ := hordinary.append
      obtain ⟨hproject, houtput, failures, stands₁, hshows₁, hfiles, hbalanced₁⟩ := ih hbefore
      rw [← hproject, ← houtput] at hbalanced₁ ⊢
      have hgoing := Workshop.isStopped_of_inProgress hbalanced₁.record.status
      obtain ⟨hproject₂, houtput₂, ⟨rfl, rfl, hshows₂⟩ |
        ⟨i, file, standing, standing', hi, hadvances, hshows₂⟩⟩ := hmove.advances hgoing hshows₁
      · rw [Option.toList_none, List.append_nil]
        exact ⟨hproject₂, houtput₂, failures, stands₁, hshows₂, hfiles, hbalanced₁⟩
      · obtain ⟨failures', hbalanced₂⟩ := hbalanced₁.advance hi hadvances fun t ht =>
          hnew t (by simpa using ht)
        refine ⟨hproject₂, houtput₂, failures', _, hshows₂, ?_, hbalanced₂⟩
        rw [map_file_set hi, hfiles]

end

/-! ### The length of a course -/

/-- A total is smaller when one of its parts is. -/
theorem foldr_set_lt {α : Type} {f : α → Nat} {l : List α} {i : Nat} {a b : α}
    (h : l[i]? = some a) (hlt : f b < f a) :
    (l.set i b).foldr (fun x n => f x + n) 0 < l.foldr (fun x n => f x + n) 0 := by
  induction l generalizing i with
  | nil => cases h
  | cons first rest ih =>
      cases i with
      | zero =>
          cases h
          simpa using hlt
      | succ i => simpa using ih h

theorem foldr_add_const {α : Type} (k : Nat) (l : List α) :
    l.foldr (fun _ n => k + n) 0 = l.length * k := by
  induction l with
  | nil => exact (Nat.zero_mul k).symm
  | cons first rest ih => rw [List.foldr_cons, ih, List.length_cons, Nat.succ_mul, Nat.add_comm]

namespace Converter

theorem weight_setStanding {n : Nat} {r : Run} {place : Nat} {t : Task} {standing : Standing}
    (ht : r.tasks[place]? = some t)
    (hlt : Standing.weight n standing < Standing.weight n t.standing) :
    weight n (setStanding r place t.file standing) < weight n r :=
  Nat.add_lt_add_right (foldr_set_lt ht hlt) _

theorem weight_afterFailure (c : Converter σ) (n : Nat) (cause : Incident) (w : Workshop σ) :
    Standing.weight c.settings.maxAttempts (c.afterFailure n cause w).1 <
      Standing.weight c.settings.maxAttempts (.waiting n) := by
  by_cases hinterrupted : cause.isInterruption = true
  · unfold afterFailure
    rw [if_pos hinterrupted]
    simp [Standing.weight]
  · rw [afterFailure_standing w c n cause (Bool.eq_false_iff.mpr hinterrupted)]
    by_cases hmore : n < c.settings.maxAttempts
    · rw [if_pos hmore]
      simp only [Standing.weight]
      omega
    · rw [if_neg hmore]
      simp [Standing.weight]

end Converter

section

variable {c : Converter σ} {m : Move} {moves : List Move} {trial : Option Trial}
  {trials : List Trial} {r r' : Run} {w w' : Workshop σ}

/-- Every move makes the weight of what is left smaller. -/
theorem Moved.weight_lt (h : Moved c m trial r w r' w') :
    Converter.weight c.settings.maxAttempts r' < Converter.weight c.settings.maxAttempts r := by
  cases h with
  | dispatch h =>
      obtain ⟨-, chunk, rest, hq, ⟨-, rfl⟩ | ⟨-, rfl⟩⟩ := Converter.dispatch_cases h
      · unfold Converter.weight
        dsimp only
        rw [hq, List.foldr_nil, List.foldr_nil, List.foldr_cons]
        omega
      · have hpos := c.settings.maxAttempts_pos
        have hone : Converter.Standing.weight c.settings.maxAttempts (.waiting 1) =
            c.settings.maxAttempts + 1 := by
          simp only [Converter.Standing.weight]
          omega
        have htasks : (chunk.map fun file => (⟨file, .waiting 1⟩ : Task)).foldr
            (fun t n => Converter.Standing.weight c.settings.maxAttempts t.standing + n) 0 =
            chunk.length * (c.settings.maxAttempts + 1) := by
          rw [List.foldr_map]
          dsimp only
          rw [hone, foldr_add_const]
        unfold Converter.weight
        dsimp only
        rw [htasks, hq, List.foldr_cons]
        omega
  | converted ht h =>
      refine Converter.weight_setStanding ht ?_
      simp [Converter.Standing.weight]
  | missed ht h => exact Converter.weight_setStanding ht (Converter.weight_afterFailure _ _ _ _)
  | settle h =>
      rcases Converter.settleFile_cases h with
        ⟨file, m, ht, rfl, -⟩ | ⟨file, cause, ht, rfl, -⟩ <;>
        exact Converter.weight_setStanding ht (by simp [Converter.Standing.weight])

/-- No course is longer than the weight of what is left at its start. -/
theorem Course.length_le (h : Course c r w moves trials r' w') :
    moves.length + Converter.weight c.settings.maxAttempts r' ≤
      Converter.weight c.settings.maxAttempts r := by
  induction h with
  | start => simp
  | next h hmove ih =>
      have hlt := hmove.weight_lt
      rw [List.length_append, List.length_singleton]
      omega

/-! ### The end of a course -/

/-- Every file has been settled. -/
def Run.IsOver (r : Run) : Prop := (∀ t ∈ r.tasks, t.isSettled = true) ∧ r.queue = []

theorem exists_dispatch (hall : ∀ t ∈ r.tasks, t.isSettled = true) (hq : r.queue ≠ []) :
    ∃ r', Converter.dispatch r w = some r' := by
  obtain ⟨chunk, rest, hcons⟩ := List.exists_cons_of_ne_nil hq
  unfold Converter.dispatch
  rw [List.all_eq_true.mpr hall, hcons]
  dsimp only
  split <;> exact ⟨_, rfl⟩

/-- As long as there are files to settle, a move can be made. -/
theorem exists_moved (c : Converter σ) (w : Workshop σ)
    (hkept : ∀ t ∈ r.tasks, t.abandonment? = none) (hover : ¬ r.IsOver) :
    ∃ m trial r' w', Moved c m trial r w r' w' ∧ IsOrdinary trial.toList := by
  by_cases hall : ∀ t ∈ r.tasks, t.isSettled = true
  · obtain ⟨r', hr'⟩ := exists_dispatch (w := w) hall fun hq => hover ⟨hall, hq⟩
    exact ⟨_, _, _, _, .dispatch hr', fun t ht => by cases ht⟩
  · push Not at hall
    obtain ⟨t, ht, hunsettled⟩ := hall
    obtain ⟨place, hplace⟩ := List.mem_iff_getElem?.mp ht
    have hnot := hkept t ht
    obtain ⟨file, standing⟩ := t
    cases standing with
    | settled => exact absurd rfl hunsettled
    | abandoned cause => cases hnot
    | waiting n =>
        refine ⟨_, _, _, _, .missed hplace (.unread .endlessWait), ?_⟩
        intro t ht cause hcause
        obtain rfl : t = _ := List.mem_singleton.mp ht
        cases hcause
        rfl
    | converted m =>
        refine ⟨.settle place, none, _, _, .settle (by unfold Converter.settleFile; rw [hplace]), ?_⟩
        exact fun t ht => by cases ht
    | failed cause =>
        refine ⟨.settle place, none, _, _, .settle (by unfold Converter.settleFile; rw [hplace]), ?_⟩
        exact fun t ht => by cases ht

/-! ### Files at which the program was told to end -/

/-- The program was told to end at a file of the chunk at hand. -/
def Run.IsAbandoned (r : Run) : Prop :=
  ∃ (i : Nat) (file : List String) (cause : Incident), r.tasks[i]? = some ⟨file, .abandoned cause⟩

theorem Run.not_isAbandoned_iff {r : Run} :
    ¬ r.IsAbandoned ↔ ∀ t ∈ r.tasks, t.abandonment? = none := by
  constructor
  · intro hnot t ht
    obtain ⟨file, standing⟩ := t
    cases standing with
    | abandoned cause =>
        obtain ⟨i, hi⟩ := List.mem_iff_getElem?.mp ht
        exact absurd ⟨i, file, cause, hi⟩ hnot
    | _ => rfl
  · rintro hkept ⟨i, file, cause, hi⟩
    cases hkept _ (List.mem_of_getElem? hi)

theorem Run.IsAbandoned.setStanding (h : r.IsAbandoned) {place : Nat} {t : Task}
    (ht : r.tasks[place]? = some t) (hkept : t.abandonment? = none) (standing : Standing) :
    (Converter.setStanding r place t.file standing).IsAbandoned := by
  obtain ⟨i, file, cause, hi⟩ := h
  have hne : place ≠ i := by
    rintro rfl
    rw [hi] at ht
    cases ht
    cases hkept
  exact ⟨i, file, cause, (List.getElem?_set_ne hne).trans hi⟩

/-- An abandoned file is never taken up again. -/
theorem Moved.isAbandoned (h : Moved c m trial r w r' w') (hr : r.IsAbandoned) :
    r'.IsAbandoned := by
  cases h with
  | dispatch h =>
      obtain ⟨i, file, cause, hi⟩ := hr
      have hsettled := List.all_eq_true.mp (Converter.dispatch_cases h).1 _ (List.mem_of_getElem? hi)
      cases hsettled
  | converted ht h => exact hr.setStanding ht rfl _
  | missed ht h => exact hr.setStanding ht rfl _
  | settle h =>
      rcases Converter.settleFile_cases h with ⟨file, m, ht, rfl, -⟩ | ⟨file, cause, ht, rfl, -⟩
      · exact hr.setStanding ht rfl .settled
      · exact hr.setStanding ht rfl .settled

theorem Course.isAbandoned (h : Course c r w moves trials r' w') (hr : r.IsAbandoned) :
    r'.IsAbandoned := by
  induction h with
  | start => exact hr
  | next h hmove ih => exact hmove.isAbandoned ih

/-- Where no file is abandoned, no attempt has made the program end. -/
theorem Course.isOrdinary (h : Course c r w moves trials r' w') (hkept : ¬ r'.IsAbandoned) :
    IsOrdinary trials := by
  induction h with
  | start => exact fun t ht => by cases ht
  | next h hmove ih =>
      intro t ht cause hcause
      rcases List.mem_append.mp ht with ht | ht
      · exact ih (fun hr => hkept (hmove.isAbandoned hr)) t ht cause hcause
      · by_contra hinterrupted
        cases hmove with
        | dispatch h => cases ht
        | settle h => cases ht
        | converted hplace h =>
            obtain rfl := List.mem_singleton.mp ht
            cases hcause
        | missed hplace h =>
            rename_i w₂ place n file _ _
            obtain rfl := List.mem_singleton.mp ht
            cases hcause
            have hended : (c.afterFailure n cause w₂).1 = .abandoned cause := by
              unfold Converter.afterFailure
              rw [if_pos (Bool.of_not_eq_false hinterrupted)]
            refine hkept ⟨place, file, cause, ?_⟩
            rw [← hended]
            exact List.getElem?_set_self (List.getElem?_eq_some_iff.mp hplace).1

theorem Run.IsOver.not_isAbandoned (h : r.IsOver) : ¬ r.IsAbandoned := by
  rintro ⟨i, file, cause, hi⟩
  cases h.1 _ (List.mem_of_getElem? hi)

end

end PhpMigration
