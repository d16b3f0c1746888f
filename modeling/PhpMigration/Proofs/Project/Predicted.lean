/-
What comes of all attempts when a strategy is fixed.

Where the files of a project are separate, every attempt comes to what it would have come to at the
start, so what comes of all attempts at a file follows from the strategy alone (`Plays.isPredicted`).
When the file is settled that determines what has been entered for it, too (`Fares.unique`): attempts
are made until one succeeds or no more are allowed, so two lists of results that agree as far as both
go are the same.

What a settled conversion leaves behind follows from the results (`Leaves`): the entries up to their
order, and the files, because nothing is written but what succeeds.  So two conversions with one
strategy end alike (`Leaves.endsAlike`).
-/
import PhpMigration.Proofs.Project.Steady

namespace PhpMigration

variable {σ : Type}

/-- The strategy whose outcomes depend on nothing but the file and the number of the attempt. -/
def Strategy.fixed (outcomes : List String → Nat → Except Incident String) : Strategy :=
  fun file n outcome => outcome = outcomes file n

/-- What an attempt at a file comes to if it is made at the start; attempts are counted from
nought. -/
def resultAt (outcomes : List String → Nat → Except Incident String) (r : Run) (w : Workshop σ)
    (file : List String) (i : Nat) : Except Incident (Mapping × String) :=
  (Converter.attemptOf r file (outcomes file (i + 1)) w).1

/-- One of the attempts has been written to the place that its path names. -/
def IsWritten (place : List String) (trials : List Trial) (other : List String) : Prop :=
  ∃ t ∈ trials, ∃ m code, t.result = .ok (m, code) ∧ other = place ++ Path.parts m.target

/-! ### What comes of the attempts -/

namespace Converter

theorem attemptOf_congr {r r' : Run} (hproject : r'.project = r.project)
    (houtput : r'.output = r.output) (file : List String) (outcome : Except Incident String)
    (w : Workshop σ) : attemptOf r' file outcome w = attemptOf r file outcome w := by
  unfold attemptOf deliver
  rw [hproject, houtput]

end Converter

/-- What has come of the attempts so far is what would have come of them at the start, and nothing
has been written but that. -/
structure IsPredicted (outcomes : List String → Nat → Except Incident String) (r : Run)
    (place : List String) (files : List (List String)) (trials : List Trial)
    (w w' : Workshop σ) : Prop where
  steady : Steady r.project place files w w'
  results : ∀ file i result, (resultsOf trials file)[i]? = some result →
    result = resultAt outcomes r w file i
  written : w.tree.Built (IsWritten place trials) w'.tree

namespace IsPredicted

variable {outcomes : List String → Nat → Except Incident String} {r : Run} {place : List String}
  {files : List (List String)} {trials : List Trial} {w w' w'' : Workshop σ}

theorem congr (h : IsPredicted outcomes r place files trials w w') (htree : w''.tree = w'.tree)
    (hclaims : w''.claims = w'.claims) : IsPredicted outcomes r place files trials w w'' := by
  refine ⟨h.steady.congr htree hclaims, h.results, ?_⟩
  rw [htree]
  exact h.written

/-- One more attempt comes to what it would have come to at the start. -/
theorem snoc (h : IsPredicted outcomes r place files trials w w')
    (hlaid : w.tree.IsLaidOut r.output place)
    (hseparate : AreSeparate r.project place files w.tree) (hdistinct : (files.map Path.join).Nodup)
    (hclaims : w.claimsOf r.project = []) {r₁ : Run} (hproject : r₁.project = r.project)
    (houtput : r₁.output = r.output) {file : List String} (hfile : file ∈ files)
    {n : Nat} (hn : n = (resultsOf trials file).length + 1) {s : σ}
    {result : Except Incident (Mapping × String)}
    (hattempt : Converter.attemptOf r₁ file (outcomes file n) { w' with service := s } =
      (result, w''))
    (hpath : ∀ m code, result = .ok (m, code) → IsOutputPath m.target) :
    IsPredicted outcomes r place files (trials ++ [⟨file, result⟩]) w w'' := by
  rw [Converter.attemptOf_congr hproject houtput] at hattempt
  have hbefore : Steady r.project place files w { w' with service := s } :=
    h.steady.congr rfl rfl
  obtain ⟨hsteady, hsame⟩ := hbefore.attempt hlaid hseparate hdistinct hclaims
    (r := r) rfl rfl hfile (outcomes file n)
  rw [hattempt] at hsteady hsame
  refine ⟨hsteady, fun other i found hfound => ?_, ?_⟩
  · rw [resultsOf_append] at hfound
    by_cases hold : i < (resultsOf trials other).length
    · rw [List.getElem?_append_left hold] at hfound
      exact h.results other i found hfound
    · rw [List.getElem?_append_right (Nat.not_lt.mp hold)] at hfound
      obtain ⟨t, ht, hresult⟩ := List.mem_map.mp (List.mem_of_getElem? hfound)
      obtain ⟨ht, hother⟩ := List.mem_filter.mp ht
      obtain rfl := List.mem_singleton.mp ht
      obtain rfl : file = other := of_decide_eq_true hother
      have hone : resultsOf [⟨file, result⟩] file = [result] := by simp [resultsOf]
      rw [hone] at hfound
      have hi : i = (resultsOf trials file).length := by
        have hlt := (List.getElem?_eq_some_iff.mp hfound).1
        rw [List.length_singleton] at hlt
        omega
      unfold resultAt
      rw [hi, ← hn, ← hresult]
      exact hsame
  · have hkept : w.tree.Built (IsWritten place (trials ++ [⟨file, result⟩])) w'.tree :=
      h.written.mono fun other ⟨t, ht, hwritten⟩ => ⟨t, List.mem_append_left _ ht, hwritten⟩
    refine hkept.trans ?_
    rcases Converter.attemptOf_cases hattempt with ⟨cause, rfl, rfl⟩ |
      ⟨content, code, delivered, -, -, hdeliver, rfl⟩
    · exact .same
    · cases delivered with
      | error cause =>
          have hbuilt := Converter.built_of_deliver_error hdeliver
          exact FileTree.Built.mono hbuilt fun _ hnothing => hnothing.elim
      | ok m =>
          obtain ⟨there, hleads, hbuilt⟩ := Converter.built_of_deliver_ok hdeliver
          obtain ⟨e, hfolder, hlinks⟩ := (hlaid.built hsteady.built).plain
          have hthere := hfolder.place_of_hasNoLink hlinks
            (hpath m code rfl).dots_not_mem_parts hleads
          exact FileTree.Built.mono hbuilt fun other hother => ⟨_,
            List.mem_append_right _ (List.mem_singleton_self _), m, code, rfl, hother.trans hthere⟩

end IsPredicted

section

variable {c : Converter σ} {outcomes : List String → Nat → Except Incident String}
  {trials : List Trial} {r r' : Run} {w w' : Workshop σ} {place : List String}
  {stands : List Task}

/-- **What comes of all attempts follows from the strategy.** -/
theorem Plays.isPredicted (h : Plays c (.fixed outcomes) r w trials r' w')
    (hordinary : IsOrdinary trials) (hshows : r.Shows stands)
    (hbalanced : Balanced c r.project r.output [] [] stands w)
    (hlaid : w.tree.IsLaidOut r.output place)
    (hseparate : AreSeparate r.project place (stands.map Task.file) w.tree)
    (hclaims : w.claimsOf r.project = []) :
    IsPredicted outcomes r place (stands.map Task.file) trials w w' := by
  induction h with
  | start => exact ⟨.refl w hclaims, fun _ _ _ hresult => (by cases hresult), .same⟩
  | next h hmove ih =>
      rename_i trials move trial r₁ r₂ w₁ w₂
      obtain ⟨hbefore, -⟩ := hordinary.append
      have hold := ih hbefore
      obtain ⟨moves, hcourse⟩ := h.course
      obtain ⟨hproject, houtput, failures, stands₁, hshows₁, hsame, hbalanced₁⟩ :=
        hcourse.balanced hbefore hshows hbalanced
      -- the file that is attempted, and the number of the attempt
      have hfound : ∀ {i n : Nat} {file : List String}, r₁.tasks[i]? = some ⟨file, .waiting n⟩ →
          file ∈ stands.map Task.file ∧ n = (resultsOf trials file).length + 1 := by
        intro i n file ht
        have hmem := hshows₁.mem_of_mem_tasks (List.mem_of_getElem? ht)
        obtain ⟨-, -, causes, hresults, hn, -⟩ := (hbalanced₁.fares _ hmem).of_waiting
        refine ⟨hsame ▸ List.mem_map_of_mem hmem, ?_⟩
        rw [hresults, hn, List.length_map]
      have htidy : w₁.IsTidy r₁.project r₁.output := by
        rw [hproject, houtput]
        exact hbalanced₁.tidy
      cases hmove with
      | dispatch h =>
          rw [Option.toList_none, List.append_nil]
          exact hold
      | settle h =>
          rw [Option.toList_none, List.append_nil]
          exact hold.congr (Converter.settleFile_tree h) (Converter.settleFile_claims h)
      | converted s ht hs hattempt =>
          obtain ⟨hfile, hn⟩ := hfound ht
          obtain rfl := hs
          have hwritten := Converter.attempted_of_attemptOf hattempt
          have hpath := (hwritten.writesFor htidy).tidy.fair.target (hwritten.holds htidy).held
          exact hold.snoc hlaid hseparate hbalanced.distinct hclaims hproject houtput hfile hn
            hattempt fun m code hok => by cases hok; exact hpath
      | missed s ht hs hattempt =>
          obtain ⟨hfile, hn⟩ := hfound ht
          obtain rfl := hs
          refine IsPredicted.congr (hold.snoc hlaid hseparate hbalanced.distinct hclaims hproject
            houtput hfile hn hattempt fun m code hok => by cases hok) ?_ ?_
          · exact Converter.afterFailure_tree _ _ _ _
          · exact Converter.afterFailure_claims _ _ _ _

end

/-! ### Two files that fare alike -/

/-- Attempts at a settled file that agree as far as both go are the same, and so is what has been
entered for it. -/
theorem Fares.unique {maxAttempts : Nat} {path : String} {holds holds' : Mapping → String → Prop}
    {results results' : List (Except Incident (Mapping × String))}
    {mappings mappings' : List Mapping} {failures failures' : List FileFailure}
    (h : Fares maxAttempts path holds results mappings failures .settled)
    (h' : Fares maxAttempts path holds' results' mappings' failures' .settled)
    (hsame : ∀ (i : Nat) x y, results[i]? = some x → results'[i]? = some y → x = y) :
    results = results' ∧ mappings = mappings' ∧ failures = failures' := by
  have hmissed : ∀ (causes : List Incident) (more : List (Except Incident (Mapping × String)))
      (i : Nat), i < causes.length →
      ∃ cause, (causes.map .error ++ more)[i]? = some (.error cause) := by
    intro causes more i hi
    refine ⟨causes[i], ?_⟩
    rw [List.getElem?_append_left (by simpa using hi), List.getElem?_map,
      List.getElem?_eq_getElem hi]
    rfl
  have hdone : ∀ (causes : List Incident) (done : Mapping × String),
      (causes.map Except.error ++ [Except.ok done])[causes.length]? = some (.ok done) := by
    intro causes done
    rw [List.getElem?_append_right (by simp), List.length_map, Nat.sub_self]
    rfl
  have hequal : results.length = results'.length → results = results' := fun hlength =>
    List.ext_getElem hlength fun i hi hi' =>
      hsame i _ _ (List.getElem?_eq_getElem hi) (List.getElem?_eq_getElem hi')
  cases h with
  | entered hlt hholds =>
      rename_i causes m code
      cases h' with
      | entered hlt' hholds' =>
          rename_i causes' m' code'
          have hlength : causes.length = causes'.length := by
            rcases Nat.lt_trichotomy causes.length causes'.length with hless | heq | hmore
            · obtain ⟨cause, hcause⟩ := hmissed causes' [.ok (m', code')] _ hless
              cases hsame _ _ _ (hdone causes (m, code)) hcause
            · exact heq
            · obtain ⟨cause, hcause⟩ := hmissed causes [.ok (m, code)] _ hmore
              cases hsame _ _ _ hcause (hdone causes' (m', code'))
          have hlast := hsame causes.length _ _ (hdone causes (m, code))
            (hlength ▸ hdone causes' (m', code'))
          refine ⟨hequal (by simpa using hlength), ?_, rfl⟩
          cases hlast
          rfl
      | reported hcount =>
          rename_i causes' cause'
          obtain ⟨cause, hcause⟩ := hmissed (causes' ++ [cause']) [] causes.length
            (by rw [List.length_append, List.length_singleton, hcount]; exact hlt)
          rw [List.append_nil] at hcause
          cases hsame _ _ _ (hdone causes (m, code)) hcause
  | reported hcount =>
      rename_i causes cause
      cases h' with
      | entered hlt' hholds' =>
          rename_i causes' m' code'
          obtain ⟨found, hfound⟩ := hmissed (causes ++ [cause]) [] causes'.length
            (by rw [List.length_append, List.length_singleton, hcount]; exact hlt')
          rw [List.append_nil] at hfound
          cases hsame _ _ _ hfound (hdone causes' (m', code'))
      | reported hcount' =>
          rename_i causes' cause'
          have hlength : causes.length = causes'.length := by omega
          have hall := hequal (by simp [hlength])
          refine ⟨hall, rfl, ?_⟩
          have hlast := congrArg List.getLast? hall
          rw [List.map_append, List.map_append, List.getLast?_append, List.getLast?_append] at hlast
          cases hlast
          rfl

/-- Lists that agree on what they hold under each key hold the same. -/
theorem perm_of_filter_eq {α β : Type} [DecidableEq α] [DecidableEq β] (key : α → β)
    {l l' : List α} (h : ∀ a ∈ l ++ l', (l.filter fun b => key b = key a) =
      l'.filter fun b => key b = key a) : l.Perm l' := by
  refine List.perm_iff_count.mpr fun a => ?_
  by_cases hmem : a ∈ l ++ l'
  · rw [← List.count_filter (p := fun b => key b = key a) (decide_eq_true rfl), h a hmem,
      List.count_filter (p := fun b => key b = key a) (decide_eq_true rfl)]
  · rw [List.mem_append, not_or] at hmem
    rw [List.count_eq_zero.mpr hmem.1, List.count_eq_zero.mpr hmem.2]

/-! ### What settled conversions leave behind -/

/-- Two conversions have left the same behind, up to the order of their entries. -/
structure EndsAlike (project : String) (w w' : Workshop σ) : Prop where
  /-- The records differ in nothing but the order of the failures. -/
  record : ∃ failures failures' : List FileFailure, failures.Perm failures' ∧
    (w.record project).failed = .list (failures.map FileFailure.toDocument) ∧
    w'.record project =
      { w.record project with failed := .list (failures'.map FileFailure.toDocument) }
  mappings : (w.mappingsOf project).Perm (w'.mappingsOf project)
  /-- The same files are there, and they hold the same. -/
  files : ∀ place content, w.tree.top.at? place = some (.file content) ↔
    w'.tree.top.at? place = some (.file content)

theorem EndsAlike.refl {project : String} {w : Workshop σ} {failures : List FileFailure}
    (h : (w.record project).failed = .list (failures.map FileFailure.toDocument)) :
    EndsAlike project w w := by
  refine ⟨⟨failures, failures, .refl _, h, ?_⟩, .refl _, fun _ _ => Iff.rfl⟩
  rw [← h]

/-- What a settled conversion leaves behind follows from what has come of the attempts. -/
structure Leaves (maxAttempts : Nat)
    (outcomes : List String → Nat → Except Incident String) (r : Run) (place : List String)
    (files : List (List String)) (w w' : Workshop σ) (trials : List Trial)
    (failures : List FileFailure) : Prop where
  predicted : IsPredicted outcomes r place files trials w w'
  laid : w'.tree.IsLaidOut r.output place
  tried : ∀ t ∈ trials, t.file ∈ files
  owned : ∀ m ∈ w'.mappingsOf r.project, m.source ∈ files.map Path.join
  blamed : ∀ f ∈ failures, f.file ∈ files.map Path.join
  fares : ∀ file ∈ files, Fares maxAttempts (Path.join file)
    (w'.Holds r.project r.output (Path.join file)) (resultsOf trials file)
    ((w'.mappingsOf r.project).filter fun m => m.source = Path.join file)
    (failures.filter fun f => f.file = Path.join file) .settled
  record : w'.record r.project =
    { status := .completed, progress := .int 100, step := .text "completed"
      completed := .int files.length, total := .int files.length
      error := (w.record r.project).error
      failed := .list (failures.map FileFailure.toDocument) }

theorem Fares.holds_of_mem {maxAttempts : Nat} {path : String} {holds : Mapping → String → Prop}
    {results : List (Except Incident (Mapping × String))} {mappings : List Mapping}
    {failures : List FileFailure}
    (h : Fares maxAttempts path holds results mappings failures .settled) {m : Mapping}
    {code : String} (hmem : .ok (m, code) ∈ results) : holds m code := by
  cases h with
  | entered h hholds =>
      rcases List.mem_append.mp hmem with hmem | hmem
      · obtain ⟨_, -, hcause⟩ := List.mem_map.mp hmem
        cases hcause
      · cases List.mem_singleton.mp hmem
        exact hholds
  | reported h =>
      obtain ⟨_, -, hcause⟩ := List.mem_map.mp hmem
      cases hcause

namespace Leaves

variable {n : Nat} {outcomes : List String → Nat → Except Incident String} {r r' : Run}
  {place : List String} {files : List (List String)} {w w₁ w₂ : Workshop σ}
  {trials trials' : List Trial} {failures failures' : List FileFailure}

/-- What was written last is at the place that its path names. -/
theorem at?_written (h : Leaves n outcomes r place files w w₁ trials failures)
    {file : List String} (hfile : file ∈ files) {m : Mapping} {code : String}
    (hmem : .ok (m, code) ∈ resultsOf trials file) :
    w₁.tree.top.at? (place ++ Path.parts m.target) = some (.file (Text.Utf8.encode code)) := by
  have hholds := (h.fares file hfile).holds_of_mem hmem
  obtain ⟨e, hfolder, hlinks⟩ := h.laid.plain
  obtain ⟨there, hleads⟩ := hholds.written
  have hpath := h.predicted.steady.fair.target hholds.held
  rw [← hfolder.place_of_hasNoLink hlinks hpath.dots_not_mem_parts hleads]
  exact (FileTree.leadsTo_iff.mp hleads).2.2

/-- The attempts at each file have come to the same, and so have the entries. -/
theorem same (h : Leaves n outcomes r place files w w₁ trials failures)
    (h' : Leaves n outcomes r' place files w w₂ trials' failures')
    (hproject : r'.project = r.project) (houtput : r'.output = r.output) {file : List String}
    (hfile : file ∈ files) : resultsOf trials file = resultsOf trials' file ∧
      ((w₁.mappingsOf r.project).filter fun m => m.source = Path.join file) =
        ((w₂.mappingsOf r.project).filter fun m => m.source = Path.join file) ∧
      (failures.filter fun f => f.file = Path.join file) =
        failures'.filter fun f => f.file = Path.join file := by
  have hfares := h'.fares file hfile
  rw [hproject, houtput] at hfares
  refine (h.fares file hfile).unique hfares fun i x y hx hy => ?_
  rw [h.predicted.results file i x hx, h'.predicted.results file i y hy]
  unfold resultAt
  rw [Converter.attemptOf_congr hproject houtput]

/-- A file that the one conversion leaves is left by the other too. -/
theorem at?_file (h : Leaves n outcomes r place files w w₁ trials failures)
    (h' : Leaves n outcomes r' place files w w₂ trials' failures')
    (hproject : r'.project = r.project) (houtput : r'.output = r.output) {other : List String}
    {content : ByteArray} (hat : w₁.tree.top.at? other = some (.file content)) :
    w₂.tree.top.at? other = some (.file content) := by
  have hmem : ∀ {trials : List Trial} {t : Trial} {m : Mapping} {code : String}, t ∈ trials →
      t.result = .ok (m, code) → .ok (m, code) ∈ resultsOf trials t.file := by
    intro trials t m code ht hresult
    exact List.mem_map.mpr ⟨t, List.mem_filter.mpr ⟨ht, decide_eq_true rfl⟩, hresult⟩
  by_cases hwritten : IsWritten place trials other
  · obtain ⟨t, ht, m, code, hresult, rfl⟩ := hwritten
    have hfile := h.tried t ht
    have hone := hmem ht hresult
    rw [h.at?_written hfile hone] at hat
    rw [← hat]
    exact h'.at?_written hfile ((h.same h' hproject houtput hfile).1 ▸ hone)
  · refine h'.predicted.written.at?_file (h.predicted.written.at?_file_of hat hwritten) ?_
    rintro ⟨t, ht, m, code, hresult, hplace⟩
    have hone := hmem ht hresult
    rw [← (h.same h' hproject houtput (h'.tried t ht)).1] at hone
    obtain ⟨t', ht', hresult'⟩ := List.mem_map.mp hone
    exact hwritten ⟨t', List.mem_of_mem_filter ht', m, code, hresult', hplace⟩

/-- **Two settled conversions with the same strategy end alike.** -/
theorem endsAlike (h : Leaves n outcomes r place files w w₁ trials failures)
    (h' : Leaves n outcomes r' place files w w₂ trials' failures')
    (hproject : r'.project = r.project) (houtput : r'.output = r.output) :
    EndsAlike r.project w₁ w₂ := by
  refine ⟨⟨failures, failures', ?_, ?_, ?_⟩, ?_, fun other content => ⟨?_, ?_⟩⟩
  · refine perm_of_filter_eq FileFailure.file fun f hf => ?_
    have hblamed : f.file ∈ files.map Path.join :=
      (List.mem_append.mp hf).elim (h.blamed f) (h'.blamed f)
    obtain ⟨file, hfile, heq⟩ := List.mem_map.mp hblamed
    rw [← heq]
    exact (h.same h' hproject houtput hfile).2.2
  · rw [h.record]
  · have hrecord := h'.record
    rw [hproject] at hrecord
    rw [hrecord, h.record]
  · refine perm_of_filter_eq Mapping.source fun m hm => ?_
    have howned : m.source ∈ files.map Path.join :=
      (List.mem_append.mp hm).elim (h.owned m) (hproject ▸ h'.owned m)
    obtain ⟨file, hfile, heq⟩ := List.mem_map.mp howned
    rw [← heq]
    exact (h.same h' hproject houtput hfile).2.1
  · exact h.at?_file h' hproject houtput
  · exact h'.at?_file h hproject.symm houtput.symm

end Leaves

end PhpMigration
