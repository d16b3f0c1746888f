/-
Conversions that take up their files in order, and settle them in order.

Attempts at different files of a chunk may be made in any order as long as the first ones are made in
the order of the files, and so are the settlements (`Move.IsInOrder`).  Then it is enough to count
the files: so many have been taken up, and so many of these have been settled (`InLine`).  Mappings
and failures are entered in the order of the files, and each of them is what is foreseen (`Entered`).

A move keeps that (`IsOnCourse.step`), and so does a run (`InOrder.isOnCourse`).  What a settled
conversion leaves behind follows from what was there when it was ready, and nothing else.
-/
import PhpMigration.Proofs.Project.Foresight
import PhpMigration.Proofs.Project.Stage

namespace PhpMigration

variable {σ : Type}

/-! ### How the files stand -/

/-- How a file may stand all of whose attempts come to a result. -/
inductive Standing.Fits (result : Except Incident (Mapping × String)) : Standing → Prop
  | fresh : Fits result (.waiting 1)
  | missed {n : Nat} {cause : Incident} (h : result = .error cause)
      (hgoing : cause.isInterruption = false) : Fits result (.waiting (n + 2))
  | converted {m : Mapping} {code : String} (h : result = .ok (m, code)) :
      Fits result (.converted m)
  | failed {cause : Incident} (h : result = .error cause)
      (hgoing : cause.isInterruption = false) : Fits result (.failed cause)
  | settled (h : ∀ cause, result = .error cause → cause.isInterruption = false) :
      Fits result .settled

/-- The files stand in line: the first of them have been settled, and the next have been taken
up. -/
structure InLine (trials : List Trial) (settled taken : Nat) (stands : List Task) : Prop where
  files : stands.map Task.file = trials.map Trial.file
  fits : ∀ (k : Nat) (t : Task) (trial : Trial), stands[k]? = some t → trials[k]? = some trial →
    t.standing.Fits trial.result
  bound : settled ≤ trials.length
  settled : ∀ (k : Nat) (t : Task), stands[k]? = some t → (t.isSettled = true ↔ k < settled)
  taken : ∀ (k : Nat) (t : Task), stands[k]? = some t → (t.standing = .waiting 1 ↔ taken ≤ k)

namespace InLine

variable {trials : List Trial} {settled taken i : Nat} {stands : List Task} {t : Task}

theorem start (trials : List Trial) :
    InLine trials 0 0 ((trials.map Trial.file).map fun file => ⟨file, .waiting 1⟩) := by
  have hone : ∀ {k : Nat} {t : Task},
      ((trials.map Trial.file).map fun file => (⟨file, .waiting 1⟩ : Task))[k]? = some t →
      t.standing = .waiting 1 ∧ t.isSettled = false := by
    intro k t ht
    obtain ⟨file, -, rfl⟩ := List.mem_map.mp (List.mem_of_getElem? ht)
    exact ⟨rfl, rfl⟩
  refine ⟨?_, fun k t trial ht _ => ?_, Nat.zero_le _, fun k t ht => ?_, fun k t ht => ?_⟩
  · rw [List.map_map]
    exact List.map_id _
  · rw [(hone ht).1]
    exact .fresh
  · rw [(hone ht).2]
    simp
  · simp [(hone ht).1]

theorem exists_trial (h : InLine trials settled taken stands) (hi : stands[i]? = some t) :
    ∃ result, trials[i]? = some ⟨t.file, result⟩ ∧ t.standing.Fits result := by
  have hfile : (trials.map Trial.file)[i]? = some t.file := by
    rw [← h.files, List.getElem?_map, hi]
    rfl
  rw [List.getElem?_map] at hfile
  obtain ⟨trial, htrial, heq⟩ := Option.map_eq_some_iff.mp hfile
  exact ⟨trial.result, heq ▸ htrial, h.fits i t trial hi htrial⟩

/-- The files before one that is attempted have all been taken up. -/
theorem le_taken (h : InLine trials settled taken stands) (hi : stands[i]? = some t)
    (hbefore : ∀ u ∈ stands.take i, u.standing ≠ .waiting 1) : i ≤ taken := by
  by_contra hlt
  rw [Nat.not_le] at hlt
  obtain ⟨u, hu⟩ : ∃ u, stands[taken]? = some u :=
    ⟨_, List.getElem?_eq_getElem (Nat.lt_trans hlt (List.getElem?_eq_some_iff.mp hi).1)⟩
  refine hbefore u (List.mem_iff_getElem?.mpr ⟨taken, ?_⟩) ((h.taken taken u hu).mpr (Nat.le_refl _))
  rw [List.getElem?_take_of_lt hlt, hu]

/-- The files before one that is settled have all been settled. -/
theorem eq_settled (h : InLine trials settled taken stands) (hi : stands[i]? = some t)
    (hnot : t.isSettled = false) (hbefore : ∀ u ∈ stands.take i, u.isSettled = true) :
    i = settled := by
  have hle : settled ≤ i := by
    by_contra hlt
    rw [(h.settled i t hi).mpr (Nat.not_le.mp hlt)] at hnot
    cases hnot
  by_contra hne
  have hlt : settled < i := Nat.lt_of_le_of_ne hle (Ne.symm hne)
  obtain ⟨u, hu⟩ : ∃ u, stands[settled]? = some u :=
    ⟨_, List.getElem?_eq_getElem (Nat.lt_trans hlt (List.getElem?_eq_some_iff.mp hi).1)⟩
  have hsettled := hbefore u (List.mem_iff_getElem?.mpr
    ⟨settled, by rw [List.getElem?_take_of_lt hlt, hu]⟩)
  exact Nat.lt_irrefl _ ((h.settled settled u hu).mp hsettled)

/-- One file comes to stand otherwise. -/
theorem set (h : InLine trials settled taken stands) (hi : stands[i]? = some t)
    {standing : Standing} {settled' taken' : Nat}
    (hfits : ∀ trial, trials[i]? = some trial → standing.Fits trial.result)
    (hbound : settled' ≤ trials.length)
    (hsettled : ∀ k, k ≠ i → (k < settled' ↔ k < settled))
    (htaken : ∀ k, k ≠ i → (taken' ≤ k ↔ taken ≤ k))
    (hself : (⟨t.file, standing⟩ : Task).isSettled = true ↔ i < settled')
    (hself' : standing = .waiting 1 ↔ taken' ≤ i) :
    InLine trials settled' taken' (stands.set i ⟨t.file, standing⟩) := by
  have hget : ∀ {k : Nat} {u : Task}, (stands.set i ⟨t.file, standing⟩)[k]? = some u →
      k = i ∧ u = ⟨t.file, standing⟩ ∨ k ≠ i ∧ stands[k]? = some u := by
    intro k u hu
    by_cases hk : i = k
    · subst hk
      rw [List.getElem?_set_self (List.getElem?_eq_some_iff.mp hi).1] at hu
      exact .inl ⟨rfl, (Option.some.inj hu).symm⟩
    · rw [List.getElem?_set_ne hk] at hu
      exact .inr ⟨Ne.symm hk, hu⟩
  have hplace : stands[i]? = some ⟨t.file, t.standing⟩ := hi
  refine ⟨(map_file_set hplace).trans h.files,
    fun k u trial hu htrial => ?_, hbound, fun k u hu => ?_, fun k u hu => ?_⟩
  · rcases hget hu with ⟨rfl, rfl⟩ | ⟨-, hu⟩
    · exact hfits trial htrial
    · exact h.fits k u trial hu htrial
  · rcases hget hu with ⟨rfl, rfl⟩ | ⟨hk, hu⟩
    · exact hself
    · exact (h.settled k u hu).trans (hsettled k hk).symm
  · rcases hget hu with ⟨rfl, rfl⟩ | ⟨hk, hu⟩
    · exact hself'
    · exact (h.taken k u hu).trans (htaken k hk).symm

/-- A file has been attempted. -/
theorem attempt (h : InLine trials settled taken stands) (hi : stands[i]? = some t)
    (hnot : t.isSettled = false) (hle : i ≤ taken) {standing : Standing}
    (hfits : ∀ trial, trials[i]? = some trial → standing.Fits trial.result)
    (hpending : (⟨t.file, standing⟩ : Task).isSettled = false) (hnext : standing ≠ .waiting 1) :
    InLine trials settled (max taken (i + 1)) (stands.set i ⟨t.file, standing⟩) := by
  have hsettled : ¬ i < settled := fun hlt => by
    rw [(h.settled i t hi).mpr hlt] at hnot
    cases hnot
  refine h.set hi hfits h.bound (fun k _ => Iff.rfl) (fun k hk => by omega) ?_ ?_
  · rw [hpending]
    simpa using hsettled
  · exact ⟨fun heq => absurd heq hnext, fun hle' => by omega⟩

/-- A file has been settled. -/
theorem settle (h : InLine trials settled taken stands) (hi : stands[i]? = some t)
    (hsettled : i = settled) (htaken : t.standing ≠ .waiting 1)
    (hfits : ∀ trial, trials[i]? = some trial → Standing.Fits trial.result .settled) :
    InLine trials (settled + 1) taken (stands.set i ⟨t.file, .settled⟩) := by
  have hlength : i < trials.length := by
    obtain ⟨result, htrial, -⟩ := h.exists_trial hi
    exact (List.getElem?_eq_some_iff.mp htrial).1
  refine h.set hi hfits (by omega) (fun k hk => by omega) (fun k _ => Iff.rfl) ?_ ?_
  · exact ⟨fun _ => by omega, fun _ => rfl⟩
  · exact ⟨fun heq => (by cases heq), fun hle => absurd ((h.taken i t hi).mpr hle) htaken⟩

end InLine

/-! ### What is entered -/

/-- The mapping that is entered for a file. -/
def Trial.mapping? (t : Trial) : Option Mapping :=
  match t.result with
  | .ok (m, _) => some m
  | .error _ => none

/-- The failure that is entered for a file. -/
def Trial.failure? (t : Trial) : Option FileFailure :=
  match t.result with
  | .ok _ => none
  | .error cause => some ⟨Path.join t.file, cause.text⟩

/-- The first of some files have been entered, in order. -/
structure Entered (project : String) (trials : List Trial) (settled : Nat) (w : Workshop σ) :
    Prop where
  mappings : w.mappingsOf project = (trials.take settled).filterMap Trial.mapping?
  record : (w.record project).IsUnderWay settled trials.length
    ((trials.take settled).filterMap Trial.failure?)
  error : (w.record project).error = .null

theorem filterMap_take_succ {α β : Type} (f : α → Option β) {l : List α} {k : Nat} {a : α}
    (h : l[k]? = some a) :
    (l.take (k + 1)).filterMap f = (l.take k).filterMap f ++ (f a).toList := by
  rw [List.take_add_one, h, List.filterMap_append]
  cases hf : f a <;> simp [hf]

namespace Entered

variable {project : String} {trials : List Trial} {settled : Nat} {w w' : Workshop σ}
  {file : List String} {m : Mapping} {code : String} {cause : Incident}

theorem congr (h : Entered project trials settled w) (hmappings : w'.mappings = w.mappings)
    (hledger : w'.ledger = w.ledger) : Entered project trials settled w' := by
  obtain ⟨hentered, hrecord, herror⟩ := h
  unfold Workshop.mappingsOf Workshop.record at *
  rw [← hmappings] at hentered
  rw [← hledger] at hrecord herror
  exact ⟨hentered, hrecord, herror⟩

/-- One more file is entered. -/
theorem settle (h : Entered project trials settled w) (failure : Option FileFailure) {trial : Trial}
    (htrial : trials[settled]? = some trial) (hfailure : trial.failure? = failure)
    {w₁ : Workshop σ} (hledger : w₁.ledger = w.ledger)
    (hmappings : w₁.mappingsOf project = w.mappingsOf project ++ trial.mapping?.toList) :
    Entered project trials (settled + 1)
      (w₁.settle project (failure.map FileFailure.toDocument)).2 := by
  have hsame : w₁.record project = w.record project := congrArg (Ledger.get · project) hledger
  have hrecord := hsame ▸ h.record
  refine ⟨?_, ?_, ?_⟩
  · have hkept : (w₁.settle project (failure.map FileFailure.toDocument)).2.mappingsOf project =
        w₁.mappingsOf project := by
      unfold Workshop.mappingsOf Workshop.settle
      rw [Workshop.enter_mappings]
    rw [hkept, hmappings, h.mappings, filterMap_take_succ _ htrial]
  · rw [filterMap_take_succ _ htrial, hfailure]
    exact Workshop.settle_of_isUnderWay hrecord failure
  · rw [Workshop.settle_record hrecord failure]
    exact hsame ▸ h.error

end Entered

/-! ### Moves in order -/

/-- A file is attempted first when those before it have been, and is settled when those before it
are. -/
def Move.IsInOrder (r : Run) : Move → Prop
  | .dispatch => True
  | .attempt place => ∀ t ∈ r.tasks.take place, t.standing ≠ .waiting 1
  | .settle place => ∀ t ∈ r.tasks.take place, t.isSettled = true

/-- Moves of a conversion that are made in order, with the attempts; what comes of a text depends on
its name and itself only. -/
inductive InOrder (c : Converter σ) (outcomes : String → String → Except Incident String) (r : Run)
    (w : Workshop σ) : List Trial → Run → Workshop σ → Prop
  | start : InOrder c outcomes r w [] r w
  | next {trials : List Trial} {m : Move} {trial : Option Trial} {r₁ r₂ : Run}
      {w₁ w₂ : Workshop σ} (h : InOrder c outcomes r w trials r₁ w₁) (horder : m.IsInOrder r₁)
      (hmove : Played c (.reading outcomes r₁.project w₁.tree) m trial r₁ w₁ r₂ w₂) :
      InOrder c outcomes r w (trials ++ trial.toList) r₂ w₂

theorem InOrder.course {c : Converter σ} {outcomes : String → String → Except Incident String}
    {trials : List Trial} {r r' : Run} {w w' : Workshop σ}
    (h : InOrder c outcomes r w trials r' w') : ∃ moves, Course c r w moves trials r' w' := by
  induction h with
  | start => exact ⟨[], .start⟩
  | next h horder hmove ih =>
      obtain ⟨moves, hcourse⟩ := ih
      exact ⟨_, hcourse.next hmove.moved⟩

/-- So many files have been settled and so many have been taken up, and all is as foreseen. -/
structure IsOnCourse (p : Prospect) (files : List (List String)) (written : List String → Prop)
    (settled taken : Nat) (r : Run) (w : Workshop σ) : Prop where
  project : r.project = p.project
  output : r.output = p.output
  stands : ∃ stands, r.Shows stands ∧ InLine (p.trials files) settled taken stands
  keeps : p.Keeps files written taken w
  entered : Entered p.project (p.trials files) settled w

/-- All that is written is in the places. -/
def CoversForeseen (p : Prospect) (files : List (List String)) (written : List String → Prop)
    (trials : List Trial) : Prop :=
  ∀ t ∈ trials, t ∈ p.trials files → ∀ m code, t.result = .ok (m, code) →
    written (p.place ++ Path.parts m.target)

namespace IsOnCourse

variable {p : Prospect} {files : List (List String)} {written : List String → Prop}
  {settled taken : Nat} {c : Converter σ} {r r' : Run} {w w' : Workshop σ}

theorem dispatch (h : IsOnCourse p files written settled taken r w)
    (hdispatch : Converter.dispatch r w = some r') :
    IsOnCourse p files written settled taken r' w := by
  obtain ⟨stands, hshows, hline⟩ := h.stands
  have hgoing : w.ledger.isStopped r.project = false := by
    rw [h.project]
    exact Workshop.isStopped_of_inProgress h.entered.record.status
  obtain ⟨hall, chunk, rest, hqueue, ⟨hstopped, -⟩ | ⟨-, rfl⟩⟩ :=
    Converter.dispatch_cases hdispatch
  · rw [hgoing] at hstopped
    cases hstopped
  · exact ⟨h.project, h.output, ⟨stands, hshows.dispatch hall hqueue, hline⟩, h.keeps, h.entered⟩

/-- A file that is attempted in order is taken up now or has been before. -/
theorem exists_index (h : IsOnCourse p files written settled taken r w) {place n : Nat}
    {file : List String} (horder : (Move.attempt place).IsInOrder r)
    (ht : r.tasks[place]? = some ⟨file, .waiting n⟩) (standing : Standing) : ∃ stands i,
      InLine (p.trials files) settled taken stands ∧ stands[i]? = some ⟨file, .waiting n⟩ ∧
      (Converter.setStanding r place file standing).Shows (stands.set i ⟨file, standing⟩) ∧
      files[i]? = some file ∧ i ≤ taken := by
  obtain ⟨stands, hshows, hline⟩ := h.stands
  obtain ⟨i, hi, hshows', hbefore⟩ := hshows.setStanding ht standing
  refine ⟨stands, i, hline, hi, hshows', ?_, hline.le_taken hi fun u hu => ?_⟩
  · have hfile := congrArg (·[i]?) (hline.files.trans (p.map_file_trials files))
    rw [List.getElem?_map, hi] at hfile
    exact hfile.symm
  · rcases hbefore u hu with hsettled | hmem
    · intro hwaiting
      unfold Task.isSettled at hsettled
      rw [hwaiting] at hsettled
      cases hsettled
    · exact horder u hmem

section Attempt

variable {place n i : Nat} {file : List String} {outcome : Except Incident String}
  {result : Except Incident (Mapping × String)} {s : σ}

theorem result_eq (h : IsOnCourse p files written settled taken r w)
    (hclear : p.IsClear files written) (hfile : files[i]? = some file) (hle : i ≤ taken)
    (hs : Strategy.reading p.outcomes r.project w.tree file n outcome)
    (hattempt : Converter.attemptOf r file outcome { w with service := s } = (result, w')) :
    (p.trials files)[i]? = some ⟨file, result⟩ := by
  rw [h.project] at hs
  have hkeeps : p.Keeps files written taken { w with service := s } := h.keeps.congr rfl rfl
  have hsame := (hkeeps.attemptOf_eq hclear h.project h.output hfile hle hs).1
  rw [hattempt] at hsame
  rw [p.getElem?_trials_of hfile, ← hsame]

/-- **An attempt that is made in order comes to what is foreseen**, and the file stands as it then
may. -/
theorem attempt (h : IsOnCourse p files written settled taken r w)
    (hclear : p.IsClear files written) (horder : (Move.attempt place).IsInOrder r)
    (ht : r.tasks[place]? = some ⟨file, .waiting n⟩)
    (hs : Strategy.reading p.outcomes r.project w.tree file n outcome)
    (hattempt : Converter.attemptOf r file outcome { w with service := s } = (result, w'))
    (hwritten : CoversForeseen p files written [⟨file, result⟩])
    {standing : Standing} {w'' : Workshop σ}
    (hnext : (Standing.waiting n).Fits result → standing.Fits result ∧ standing ≠ .waiting 1)
    (hpending : (⟨file, standing⟩ : Task).isSettled = false)
    (htree : w''.tree = w'.tree) (hclaims : w''.claims = w'.claims)
    (hmappings : w''.mappings = w'.mappings) (hledger : w''.ledger = w'.ledger) :
    ∃ taken', IsOnCourse p files written settled taken'
      (Converter.setStanding r place file standing) w'' := by
  obtain ⟨stands, i, hline, hi, hshows, hfile, hle⟩ := h.exists_index horder ht standing
  have hself := h.result_eq hclear hfile hle hs hattempt
  have hfits := hnext (hline.fits i _ _ hi hself)
  have hattempted := Converter.attempted_of_attemptOf hattempt
  rw [h.project] at hs
  have hkeeps : p.Keeps files written taken { w with service := s } := h.keeps.congr rfl rfl
  obtain ⟨hsame, hkeeps'⟩ := hkeeps.attempt hclear h.project h.output hfile hle hs hattempt
    fun m code hok => by
      have hresult := hself
      rw [p.getElem?_trials_of hfile, hok] at hresult
      cases hresult
      exact hwritten _ (List.mem_singleton_self _) (List.mem_of_getElem? hself) m code rfl
  refine ⟨max taken (i + 1), h.project, h.output, ⟨_, hshows, ?_⟩, hkeeps'.congr htree hclaims,
    h.entered.congr (hmappings.trans hattempted.mappings) (hledger.trans hattempted.ledger)⟩
  refine hline.attempt hi rfl hle (fun trial htrial => ?_) hpending hfits.2
  rw [hself] at htrial
  cases htrial
  exact hfits.1

end Attempt

/-- What is attempted in order comes to what is foreseen. -/
theorem mem_trials (h : IsOnCourse p files written settled taken r w)
    (hclear : p.IsClear files written) {m : Move} {trial : Option Trial} (horder : m.IsInOrder r)
    (hmove : Played c (.reading p.outcomes r.project w.tree) m trial r w r' w') :
    ∀ t ∈ trial.toList, t ∈ p.trials files := by
  intro t ht
  cases hmove with
  | dispatch _ => cases ht
  | settle _ => cases ht
  | converted s hplace hs hattempt =>
      obtain ⟨_, i, -, -, -, hfile, hle⟩ := h.exists_index horder hplace .settled
      rw [List.mem_singleton.mp ht]
      exact List.mem_of_getElem? (h.result_eq hclear hfile hle hs hattempt)
  | missed s hplace hs hattempt =>
      obtain ⟨_, i, -, -, -, hfile, hle⟩ := h.exists_index horder hplace .settled
      rw [List.mem_singleton.mp ht]
      exact List.mem_of_getElem? (h.result_eq hclear hfile hle hs hattempt)

/-- **A settlement that is made in order enters what is foreseen.** -/
theorem settle (h : IsOnCourse p files written settled taken r w) {place : Nat}
    (horder : (Move.settle place).IsInOrder r)
    (hsettle : Converter.settleFile place r w = some (r', w')) :
    IsOnCourse p files written (settled + 1) taken r' w' := by
  obtain ⟨stands, hshows, hline⟩ := h.stands
  have hdone : ∀ {file : List String} {standing : Standing}, r.tasks[place]? = some ⟨file, standing⟩ →
      (⟨file, standing⟩ : Task).isSettled = false → standing ≠ .waiting 1 →
      (∀ result, standing.Fits result → Standing.Fits result .settled) →
      (∃ stands', (Converter.setStanding r place file .settled).Shows stands' ∧
        InLine (p.trials files) (settled + 1) taken stands') ∧
      ∃ result, (p.trials files)[settled]? = some ⟨file, result⟩ ∧ standing.Fits result := by
    intro file standing ht hnot htaken hfits
    obtain ⟨i, hi, hshows', hbefore⟩ := hshows.setStanding ht .settled
    have hsettled := hline.eq_settled hi hnot fun u hu => (hbefore u hu).elim id (horder u)
    obtain ⟨result, htrial, hfit⟩ := hline.exists_trial hi
    refine ⟨⟨_, hshows', hline.settle hi hsettled htaken fun trial hother => ?_⟩, result,
      hsettled ▸ htrial, hfit⟩
    rw [htrial] at hother
    cases hother
    exact hfits result hfit
  rcases Converter.settleFile_cases hsettle with ⟨file, m, ht, rfl, rfl⟩ | ⟨file, cause, ht, rfl, rfl⟩
  · obtain ⟨hstands, result, htrial, hfit⟩ := hdone ht rfl nofun fun result hfit => by
      cases hfit with
      | converted hresult => exact .settled fun cause hcause => by rw [hresult] at hcause; cases hcause
    cases hfit with
    | converted hresult =>
        subst hresult
        refine ⟨h.project, h.output, hstands, h.keeps.congr ?_ ?_, ?_⟩
        · exact Workshop.enter_tree (w := w.addMapping r.project m) _
        · exact Workshop.enter_claims (w := w.addMapping r.project m) _
        · rw [h.project]
          refine h.entered.settle none htrial rfl rfl ?_
          unfold Workshop.mappingsOf Workshop.addMapping
          rw [Table.find?_set, if_pos rfl]
          rfl
  · obtain ⟨hstands, result, htrial, hfit⟩ := hdone ht rfl nofun fun result hfit => by
      cases hfit with
      | failed hresult hgoing =>
          exact .settled fun other hother => by rw [hresult] at hother; cases hother; exact hgoing
    cases hfit with
    | failed hresult hgoing =>
        subst hresult
        refine ⟨h.project, h.output, hstands,
          h.keeps.congr (Workshop.enter_tree _) (Workshop.enter_claims _), ?_⟩
        rw [h.project]
        exact h.entered.settle (some ⟨Path.join file, cause.text⟩) htrial rfl rfl
          (List.append_nil _).symm

/-- **A move in order keeps a conversion on course.** -/
theorem step (h : IsOnCourse p files written settled taken r w) (hclear : p.IsClear files written)
    {m : Move} {trial : Option Trial} (horder : m.IsInOrder r)
    (hmove : Played c (.reading p.outcomes r.project w.tree) m trial r w r' w')
    (hordinary : IsOrdinary trial.toList)
    (hwritten : CoversForeseen p files written trial.toList) :
    ∃ settled' taken', IsOnCourse p files written settled' taken' r' w' := by
  cases hmove with
  | dispatch hdispatch => exact ⟨settled, taken, h.dispatch hdispatch⟩
  | settle hsettle => exact ⟨settled + 1, taken, h.settle horder hsettle⟩
  | converted s ht hs hattempt =>
      exact ⟨settled, h.attempt hclear horder ht hs hattempt hwritten
        (fun _ => ⟨.converted rfl, nofun⟩) rfl rfl rfl rfl rfl⟩
  | missed s ht hs hattempt =>
      rename_i w₁ place n file outcome cause
      have hgoing : cause.isInterruption = false :=
        hordinary _ (List.mem_singleton_self _) cause rfl
      refine ⟨settled, h.attempt hclear horder ht hs hattempt hwritten (fun hfits => ?_)
        (Advances.isSettled_afterFailure c n cause w₁)
        (Converter.afterFailure_tree w₁ c n cause) (Converter.afterFailure_claims w₁ c n cause)
        (Converter.afterFailure_mappings w₁ c n cause)
        (Converter.afterFailure_ledger w₁ c n cause)⟩
      obtain ⟨k, rfl⟩ : ∃ k, n = k + 1 := by
        cases hfits with
        | fresh => exact ⟨0, rfl⟩
        | missed _ _ => exact ⟨_, rfl⟩
      rw [Converter.afterFailure_standing w₁ c _ cause hgoing]
      split
      · exact ⟨.missed rfl hgoing, by simp⟩
      · exact ⟨.failed rfl hgoing, nofun⟩

/-- When all files are settled, all that is foreseen has come. -/
theorem of_isOver (h : IsOnCourse p files written settled taken r w) (hover : r.IsOver) :
    settled = files.length ∧ p.IsThere files w.tree ∧
      ∀ t ∈ p.trials files, ∀ cause, t.result = .error cause → cause.isInterruption = false := by
  obtain ⟨stands, hshows, hline⟩ := h.stands
  have hlength : stands.length = (p.trials files).length := by
    have hfiles := congrArg List.length hline.files
    rwa [List.length_map, List.length_map] at hfiles
  have hstand : ∀ {k : Nat} {t : Trial}, (p.trials files)[k]? = some t →
      k < settled ∧ k < taken ∧ Standing.Fits t.result .settled := by
    intro k t ht
    have hk : k < stands.length := hlength ▸ (List.getElem?_eq_some_iff.mp ht).1
    have hu : stands[k]? = some stands[k] := List.getElem?_eq_getElem hk
    have hsettled := hshows.isSettled hover _ (List.getElem_mem hk)
    have hfits := hline.fits k _ t hu ht
    have hlt := (hline.settled k _ hu).mp hsettled
    have htaken := mt (hline.taken k _ hu).mpr
    generalize stands[k] = u at hsettled hfits htaken
    obtain ⟨file, standing⟩ := u
    cases standing with
    | settled => exact ⟨hlt, Nat.not_le.mp (htaken nofun), hfits⟩
    | _ => cases hsettled
  refine ⟨?_, fun t ht m code hresult => ?_, fun t ht cause hcause => ?_⟩
  · rw [← p.length_trials files]
    refine Nat.le_antisymm hline.bound (Nat.not_lt.mp fun hlt => ?_)
    exact Nat.lt_irrefl _ (hstand (List.getElem?_eq_getElem hlt)).1
  · obtain ⟨k, hk⟩ := List.mem_iff_getElem?.mp ht
    obtain ⟨file, result⟩ := t
    exact h.keeps.there k (hstand hk).2.1 file m code (by rw [hk]; exact congrArg _ (congrArg _ hresult))
  · obtain ⟨k, hk⟩ := List.mem_iff_getElem?.mp ht
    have hfits := (hstand hk).2.2
    cases hfits with
    | settled hgoing => exact hgoing cause hcause

/-- No file is abandoned. -/
theorem kept (h : IsOnCourse p files written settled taken r w) :
    ∀ t ∈ r.tasks, t.abandonment? = none := by
  intro t ht
  obtain ⟨stands, hshows, hline⟩ := h.stands
  obtain ⟨i, hi⟩ := List.mem_iff_getElem?.mp (hshows.mem_of_mem_tasks ht)
  obtain ⟨result, -, hfits⟩ := hline.exists_trial hi
  obtain ⟨file, standing⟩ := t
  cases hfits <;> rfl

end IsOnCourse

/-- **A conversion whose moves are made in order stays on course.** -/
theorem InOrder.isOnCourse {c : Converter σ} {p : Prospect} {files : List (List String)}
    {written : List String → Prop} {trials : List Trial} {r r' : Run} {w w' : Workshop σ}
    (h : InOrder c p.outcomes r w trials r' w') (hclear : p.IsClear files written)
    (hstart : IsOnCourse p files written 0 0 r w) (hordinary : IsOrdinary trials)
    (hwritten : CoversForeseen p files written trials) :
    ∃ settled taken, IsOnCourse p files written settled taken r' w' := by
  induction h with
  | start => exact ⟨0, 0, hstart⟩
  | next h horder hmove ih =>
      obtain ⟨hbefore, hone⟩ := hordinary.append
      obtain ⟨settled, taken, hold⟩ :=
        ih hbefore fun t ht => hwritten t (List.mem_append_left _ ht)
      exact hold.step hclear horder hmove hone fun t ht => hwritten t (List.mem_append_right _ ht)

/-! ### Going on to the end -/

namespace Converter

/-- The first file that is not settled. -/
theorem exists_first_unsettled {tasks : List Task} (h : ¬ ∀ t ∈ tasks, t.isSettled = true) :
    ∃ front t rest, tasks = front ++ t :: rest ∧ t.isSettled = false ∧
      ∀ u ∈ front, u.isSettled = true := by
  cases hfind : tasks.find? fun t => !t.isSettled with
  | none => exact absurd (fun t ht => by simpa using List.find?_eq_none.mp hfind t ht) h
  | some t =>
      obtain ⟨hnot, front, rest, rfl, hfront⟩ := List.find?_eq_some_iff_append.mp hfind
      exact ⟨front, t, rest, rfl, by simpa using hnot, fun u hu => by simpa using hfront u hu⟩

/-- A file can be taken up and settled when those before it are settled. -/
theorem isInOrder_of_settled {r : Run} {front rest : List Task} {t : Task}
    (htasks : r.tasks = front ++ t :: rest) (hfront : ∀ u ∈ front, u.isSettled = true) :
    (Move.attempt front.length).IsInOrder r ∧ (Move.settle front.length).IsInOrder r := by
  have hbefore : r.tasks.take front.length = front := by rw [htasks, List.take_left]
  refine ⟨fun u hu hwaiting => ?_, fun u hu => hfront u (hbefore ▸ hu)⟩
  have hsettled := hfront u (hbefore ▸ hu)
  unfold Task.isSettled at hsettled
  rw [hwaiting] at hsettled
  cases hsettled

/-- The moves that are made in turn are in order. -/
theorem isInOrder_of_nextMove {r : Run} {m : Move} (hkept : ∀ t ∈ r.tasks, t.abandonment? = none)
    (h : nextMove r = some m) : m.IsInOrder r := by
  by_cases hall : ∀ t ∈ r.tasks, t.isSettled = true
  · unfold nextMove at h
    rw [nextFrom_of_settled hall] at h
    dsimp only at h
    split at h
    · cases h
    · cases h
      trivial
  · obtain ⟨front, t, rest, htasks, hnot, hfront⟩ := exists_first_unsettled hall
    have hskip : ∀ {front : List Task} {n : Nat}, (∀ u ∈ front, u.isSettled = true) →
        nextFrom n (front ++ t :: rest) = nextFrom (n + front.length) (t :: rest) := by
      intro front n hfront
      induction front generalizing n with
      | nil => rfl
      | cons first front ih =>
          obtain ⟨hfirst, hrest⟩ := List.forall_mem_cons.mp hfront
          obtain ⟨file, standing⟩ := first
          cases standing with
          | settled =>
              show nextFrom (n + 1) (front ++ t :: rest) = _
              rw [ih hrest, List.length_cons, Nat.add_assoc, Nat.add_comm 1]
          | _ => cases hfirst
    obtain ⟨hattempt, hsettle⟩ := isInOrder_of_settled htasks hfront
    have hkept' := hkept t (by rw [htasks]; simp)
    unfold nextMove at h
    rw [htasks, hskip hfront, Nat.zero_add] at h
    obtain ⟨file, standing⟩ := t
    cases standing with
    | waiting n =>
        cases h
        exact hattempt
    | converted m' =>
        cases h
        exact hsettle
    | failed cause =>
        cases h
        exact hsettle
    | abandoned cause => cases hkept'
    | settled => cases hnot

end Converter

/-- As long as there are files to settle, a move can be made in order. -/
theorem exists_played_isInOrder (c : Converter σ)
    (outcomes : String → String → Except Incident String) {r : Run} (w : Workshop σ)
    (hkept : ∀ t ∈ r.tasks, t.abandonment? = none) (hover : ¬ r.IsOver) :
    ∃ m trial r' w', m.IsInOrder r ∧
      Played c (.reading outcomes r.project w.tree) m trial r w r' w' := by
  by_cases hall : ∀ t ∈ r.tasks, t.isSettled = true
  · obtain ⟨r', hr'⟩ := exists_dispatch (w := w) hall fun hq => hover ⟨hall, hq⟩
    exact ⟨.dispatch, _, _, _, trivial, .dispatch hr'⟩
  · obtain ⟨front, t, rest, htasks, hnot, hfront⟩ := Converter.exists_first_unsettled hall
    obtain ⟨hattempt, hsettle⟩ := Converter.isInOrder_of_settled htasks hfront
    have hplace : r.tasks[front.length]? = some t := by
      rw [htasks, List.getElem?_append_right (Nat.le_refl _), Nat.sub_self]
      rfl
    have hkept' := hkept t (List.mem_of_getElem? hplace)
    obtain ⟨file, standing⟩ := t
    cases standing with
    | settled => cases hnot
    | abandoned cause => cases hkept'
    | waiting n =>
        obtain ⟨outcome, hs⟩ : ∃ outcome,
            Strategy.reading outcomes r.project w.tree file n outcome := by
          unfold Strategy.reading
          cases Converter.sourceText w.tree (Workshop.folderOf r.project ++ file) with
          | error cause => exact ⟨.error cause, fun _ h => by cases h⟩
          | ok content => exact ⟨_, fun _ h => by cases h; rfl⟩
        cases hmade : Converter.attemptOf r file outcome w with
        | mk result w' =>
            cases result with
            | ok done => exact ⟨_, _, _, _, hattempt, .converted w.service hplace hs hmade⟩
            | error cause => exact ⟨_, _, _, _, hattempt, .missed w.service hplace hs hmade⟩
    | converted m =>
        exact ⟨_, none, _, _, hsettle,
          .settle (by unfold Converter.settleFile; rw [hplace])⟩
    | failed cause =>
        exact ⟨_, none, _, _, hsettle,
          .settle (by unfold Converter.settleFile; rw [hplace])⟩

theorem InOrder.trans {c : Converter σ} {outcomes : String → String → Except Incident String}
    {trials more : List Trial} {r r₁ r' : Run} {w w₁ w' : Workshop σ}
    (h : InOrder c outcomes r w trials r₁ w₁) (h' : InOrder c outcomes r₁ w₁ more r' w') :
    InOrder c outcomes r w (trials ++ more) r' w' := by
  induction h' with
  | start => simpa using h
  | next _ horder hmove ih =>
      rw [← List.append_assoc]
      exact ih.next horder hmove

/-- **A conversion on course can be taken to its end** if the program is told to end by none of its
files. -/
theorem IsOnCourse.exists_isOver {p : Prospect} {files : List (List String)}
    {written : List String → Prop} {settled taken : Nat} {r : Run} {w : Workshop σ}
    (h : IsOnCourse p files written settled taken r w) (c : Converter σ)
    (hclear : p.IsClear files written) (hordinary : IsOrdinary (p.trials files))
    (hwritten : CoversForeseen p files written (p.trials files)) :
    ∃ trials r' w', InOrder c p.outcomes r w trials r' w' ∧ r'.IsOver := by
  induction hn : Converter.weight c.settings.maxAttempts r using Nat.strongRecOn
    generalizing settled taken r w with
  | _ n ih =>
      by_cases hover : r.IsOver
      · exact ⟨[], r, w, .start, hover⟩
      · obtain ⟨m, trial, r₁, w₁, horder, hplayed⟩ :=
          exists_played_isInOrder c p.outcomes w h.kept hover
        have hforeseen := h.mem_trials hclear horder hplayed
        obtain ⟨settled', taken', hnext⟩ := h.step hclear horder hplayed
          (fun t ht => hordinary t (hforeseen t ht)) fun t ht _ => hwritten t (hforeseen t ht)
            (hforeseen t ht)
        obtain ⟨trials, r', w', hrest, hover'⟩ :=
          ih _ (hn ▸ hplayed.moved.weight_lt) hnext rfl
        exact ⟨_, r', w', (InOrder.start.next horder hplayed).trans hrest, hover'⟩

end PhpMigration
