/-
Conversions that come to the same end in whatever order their moves are made.

The moves of a conversion cannot be exchanged one by one: which of two files was mapped first is seen
in the mappings, and which of two failures came first in the record.  But what a settled conversion
leaves behind, up to the order of its entries, follows from what has come of the attempts, and that
follows from the strategy.  So neither the order of the moves matters nor the size of the chunks
(`endsOneWay_of_isSeparate`).

There are two ways in which files of one conversion could still meet.  A link in the output makes two
paths lead to one place, and then the file that is converted last is the one that is kept.  And a
source may be a link to what another file is converted to (`not_endsOneWay_of_link`).
-/
import PhpMigration.Proofs.Project.Predicted
import PhpMigration.Proofs.Project.Scaffold

namespace PhpMigration

variable {σ : Type}

/-- The converter with another size of chunks. -/
def Converter.withChunkSize (c : Converter σ) (size : Nat) (h : 0 < size) : Converter σ :=
  { c with settings := { c.settings with chunkSize := size, chunkSize_pos := h } }

/-! ### Settled conversions -/

section

variable {c : Converter σ} {strategy : Strategy} {move : Move} {trial : Option Trial}
  {trials : List Trial} {r r' : Run} {w w' : Workshop σ} {done total : Nat}
  {failures : List FileFailure}

/-- A move does not touch the error of a record under way. -/
theorem Moved.error (h : Moved c move trial r w r' w')
    (hr : (w.record r.project).IsUnderWay done total failures) :
    (w'.record r.project).error = (w.record r.project).error := by
  rcases h.ledger_cases with ⟨-, hledger⟩ | ⟨w₁, failure, -, hledger, rfl⟩
  · unfold Workshop.record
    rw [hledger]
  · have hsame : w₁.record r.project = w.record r.project :=
      congrArg (Ledger.get · r.project) hledger
    rw [← hsame] at hr ⊢
    rw [Workshop.settle_record hr failure]

theorem Plays.error (h : Plays c strategy r w trials r' w')
    (hr : (w.record r.project).IsUnderWay done total failures) :
    (∃ done failures, (w'.record r.project).IsUnderWay done total failures) ∧
      (w'.record r.project).error = (w.record r.project).error := by
  induction h with
  | start => exact ⟨⟨done, failures, hr⟩, rfl⟩
  | next h hmove ih =>
      obtain ⟨⟨done₁, failures₁, hr₁⟩, herror⟩ := ih
      rw [← h.project] at hr₁ herror ⊢
      obtain ⟨failures₂, hr₂⟩ := hmove.moved.isUnderWay hr₁
      rw [← herror]
      exact ⟨⟨_, failures₂, hr₂⟩, hmove.moved.error hr₁⟩

end

namespace Converter

variable {c : Converter σ} {outcomes : List String → Nat → Except Incident String}
  {project : String} {trials : List Trial} {r r' : Run} {w₀ w₁ w w' w'' : Workshop σ}

/-- The record of a conversion that has come to its end. -/
theorem conclude_record {done total : Nat} {failures : List FileFailure}
    (h : (w.record project).IsUnderWay done total failures) :
    (conclude project w).2.record project = { w.record project with
      status := .completed, progress := .int 100, step := .text "completed" } := by
  rw [conclude_of_inProgress h.status]
  exact Workshop.complete_of_isUnderWay h

theorem conclude_claims (project : String) (w : Workshop σ) :
    (conclude project w).2.claims = w.claims := by
  unfold conclude
  dsimp only
  split
  · rfl
  · exact Workshop.enter_claims _

/-- What a conversion leaves behind when all its files are settled. -/
theorem leaves_of_isOver {place : List String} {files : List (List String)}
    (h : Plays c (.fixed outcomes) r w trials r' w') (hover : r'.IsOver)
    (hshows : r.Shows (files.map fun file => ⟨file, .waiting 1⟩))
    (hbalanced : Balanced c r.project r.output [] [] (files.map fun file => ⟨file, .waiting 1⟩) w)
    (hfolder : needFolder r.project w = .ok ()) (houtput : c.outputFolder r.project = .ok r.output)
    (hclaims : w.claimsOf r.project = []) (hlaid : w.tree.IsLaidOut r.output place)
    (hseparate : AreSeparate r.project place files w.tree) :
    ∃ failures, Leaves c.settings.maxAttempts outcomes r place files w
      (conclude r.project w').2 trials failures := by
  have hfiles : (files.map fun file => (⟨file, .waiting 1⟩ : Task)).map Task.file = files := by
    rw [List.map_map]
    exact List.map_id files
  obtain ⟨moves, hcourse⟩ := h.course
  have hordinary := hcourse.isOrdinary hover.not_isAbandoned
  obtain ⟨-, -, failures, stands, hshows', hsame, hbalanced'⟩ :=
    hcourse.balanced hordinary hshows hbalanced
  rw [hfiles] at hsame
  have hall := hshows'.isSettled hover
  have hpredicted := h.isPredicted hordinary hshows hbalanced hlaid (hfiles.symm ▸ hseparate) hclaims
  rw [hfiles] at hpredicted
  have haccount := hbalanced'.isAccountedFor hall (needFolder_grown hfolder hcourse.grown) houtput
  rw [hsame] at haccount
  obtain ⟨failures', hfailed, howned, hblamed, hfares⟩ := haccount.fares
  have hlength : stands.length = files.length := by rw [← hsame, List.length_map]
  have hrecord := hbalanced'.record
  rw [List.countP_eq_length.mpr hall, hlength] at hrecord
  have hended := conclude_record hrecord
  refine ⟨failures', hpredicted.congr (conclude_tree _ _) (conclude_claims _ _), ?_, haccount.tried,
    howned, hblamed, hfares, ?_⟩
  · rw [conclude_tree]
    exact hlaid.built hpredicted.steady.built
  · rw [← haccount.entered] at hfailed
    rw [hended] at hfailed ⊢
    dsimp only at hfailed ⊢
    rw [hrecord.completed, hrecord.total, hfailed, (h.error hbalanced.record).2]

/-! ### Conversions that come to an end -/

/-- A strategy that never tells the whole program to end. -/
def IsQuiet (outcomes : List String → Nat → Except Incident String) : Prop :=
  ∀ file n cause, outcomes file n = .error cause → cause.isInterruption = false

theorem sourceText_error {t : FileTree} {path : List String} {cause : Incident}
    (h : sourceText t path = .error cause) : cause.isInterruption = false := by
  unfold sourceText at h
  cases hread : t.read path with
  | error fault =>
      rw [hread] at h
      cases h
      rfl
  | ok bytes =>
      cases hdecode : Text.Utf8.decode bytes with
      | error fault =>
          simp only [hread, hdecode, Except.mapError, bind, Except.bind] at h
          cases h
          rfl
      | ok text =>
          simp only [hread, hdecode, Except.mapError, bind, Except.bind] at h
          cases h

/-- An attempt tells the program to end just if the strategy does. -/
theorem attemptOf_error {file : List String} {outcome : Except Incident String} {cause : Incident}
    (h : attemptOf r file outcome w = (.error cause, w'))
    (hquiet : ∀ cause, outcome = .error cause → cause.isInterruption = false) :
    cause.isInterruption = false := by
  unfold attemptOf at h
  cases hread : sourceText w.tree (Workshop.folderOf r.project ++ file) with
  | error fault =>
      rw [hread] at h
      cases h
      exact sourceText_error hread
  | ok content =>
      rw [hread] at h
      cases outcome with
      | error fault =>
          cases h
          exact hquiet _ rfl
      | ok code =>
          unfold deliver at h
          dsimp only at h
          split at h
          · cases h
          · cases h
            rfl

/-- No file is abandoned if the strategy is quiet. -/
theorem kept_of_played (hquiet : IsQuiet outcomes) {m : Move} {trial : Option Trial}
    (h : Played c (.fixed outcomes) m trial r w r' w')
    (hkept : ∀ t ∈ r.tasks, t.abandonment? = none) : ∀ t ∈ r'.tasks, t.abandonment? = none := by
  have hset : ∀ {place : Nat} {file : List String} {standing : Standing},
      (⟨file, standing⟩ : Task).abandonment? = none →
      ∀ t ∈ (setStanding r place file standing).tasks, t.abandonment? = none := by
    intro place file standing hnew t ht
    rcases List.mem_or_eq_of_mem_set ht with ht | rfl
    · exact hkept t ht
    · exact hnew
  cases h with
  | dispatch h =>
      obtain ⟨-, chunk, rest, -, ⟨-, rfl⟩ | ⟨-, rfl⟩⟩ := dispatch_cases h
      · exact fun t ht => by cases ht
      · intro t ht
        obtain ⟨file, -, rfl⟩ := List.mem_map.mp ht
        rfl
  | converted s ht hs h => exact hset rfl
  | missed s ht hs h =>
      refine hset ?_
      obtain rfl := hs
      rw [afterFailure_standing _ _ _ _ (attemptOf_error h (hquiet _ _))]
      split <;> rfl
  | settle h =>
      obtain ⟨file, rfl⟩ := settleFile_run h
      exact hset rfl

/-- As long as there are files to settle, a move can be made. -/
theorem exists_played (c : Converter σ) (outcomes : List String → Nat → Except Incident String)
    (w : Workshop σ) (hkept : ∀ t ∈ r.tasks, t.abandonment? = none) (hover : ¬ r.IsOver) :
    ∃ m trial r' w', Played c (.fixed outcomes) m trial r w r' w' := by
  by_cases hall : ∀ t ∈ r.tasks, t.isSettled = true
  · obtain ⟨r', hr'⟩ := exists_dispatch (w := w) hall fun hq => hover ⟨hall, hq⟩
    exact ⟨_, _, _, _, .dispatch hr'⟩
  · push Not at hall
    obtain ⟨t, ht, hunsettled⟩ := hall
    obtain ⟨place, hplace⟩ := List.mem_iff_getElem?.mp ht
    have hnot := hkept t ht
    obtain ⟨file, standing⟩ := t
    cases standing with
    | settled => exact absurd rfl hunsettled
    | abandoned cause => cases hnot
    | waiting n =>
        cases hattempt : attemptOf r file (outcomes file n) w with
        | mk result w' =>
            cases result with
            | ok done => exact ⟨_, _, _, _, .converted w.service hplace rfl hattempt⟩
            | error cause => exact ⟨_, _, _, _, .missed w.service hplace rfl hattempt⟩
    | converted m =>
        exact ⟨.settle place, none, _, _, .settle (by unfold settleFile; rw [hplace])⟩
    | failed cause =>
        exact ⟨.settle place, none, _, _, .settle (by unfold settleFile; rw [hplace])⟩

/-- **With a quiet strategy all files can be settled**, however far they are. -/
theorem exists_isOver (hquiet : IsQuiet outcomes)
    (hkept : ∀ t ∈ r.tasks, t.abandonment? = none) :
    ∃ trials r' w', Plays c (.fixed outcomes) r w trials r' w' ∧ r'.IsOver := by
  induction hn : weight c.settings.maxAttempts r using Nat.strongRecOn generalizing r w with
  | _ n ih =>
      by_cases hover : r.IsOver
      · exact ⟨[], r, w, .start, hover⟩
      · obtain ⟨m, trial, r₁, w₁, hplayed⟩ := exists_played c outcomes w hkept hover
        obtain ⟨trials, r', w', hplays, hover'⟩ :=
          ih _ (hn ▸ hplayed.moved.weight_lt) (kept_of_played hquiet hplayed hkept) rfl
        exact ⟨_, r', w', (Plays.start.next hplayed).trans hplays, hover'⟩

/-- The ends that a conversion with a strategy can come to, whose record has been begun. -/
inductive Ends (c : Converter σ) (strategy : Strategy) (project : String) (w₁ : Workshop σ) :
    Workshop σ → Prop
  | settled {r r' : Run} {w w' : Workshop σ} {trials : List Trial}
      (hprepare : c.prepare project w₁ = (.ok r, w)) (h : Plays c strategy r w trials r' w')
      (hover : r'.IsOver) : Ends c strategy project w₁ (conclude project w').2
  | failed {incident : Incident} {w : Workshop σ}
      (hprepare : c.prepare project w₁ = (.error incident, w)) :
      Ends c strategy project w₁ (w.fail project (lastWords incident))

/-- Only the chunks depend on their size. -/
theorem prepare_withChunkSize (size : Nat) (h : 0 < size) (w₁ : Workshop σ) :
    (c.withChunkSize size h).prepare project w₁ =
      ((c.prepare project w₁).1.map fun r => { r with queue := chunksOf size r.queue.flatten },
        (c.prepare project w₁).2) := by
  unfold prepare
  cases needFolder project w₁ with
  | error incident => rfl
  | ok u =>
      dsimp only
      rw [show (c.withChunkSize size h).laySkeleton = c.laySkeleton from rfl]
      cases c.laySkeleton project (w₁.update project { step := some (.text "creating_structure") })
        with
      | mk result w₂ =>
          cases result with
          | error incident => rfl
          | ok output =>
              dsimp only
              rw [show (c.withChunkSize size h).needSources = c.needSources from rfl]
              cases c.needSources project w₂ with
              | error incident => rfl
              | ok files =>
                  dsimp only
                  show _ = (Except.ok (⟨project, output, [],
                    chunksOf size (chunksOf c.settings.chunkSize files).flatten⟩ : Run), _)
                  rw [flatten_chunksOf c.settings.chunkSize_pos]
                  rfl

/-- The output of a project that is ready holds no link, and its files are separate. -/
def IsSeparate (c : Converter σ) (project : String) (r : Run) (w : Workshop σ) : Prop :=
  ∃ place e files, w.tree.LeadsTo r.output place e ∧ e.HasNoLink ∧
    c.sources project w = .ok files ∧ AreSeparate project place files w.tree

/-- What every conversion of a separate project leaves behind. -/
theorem exists_leaves_of_settled (size : Nat) (h : 0 < size) (hsound : w₁.tree.top.IsSound)
    (hfresh : (w₁.record project).IsUnderWay 0 0 []) {r₀ : Run}
    (hbase : c.prepare project w₁ = (.ok r₀, w)) {place : List String} {e : Entry}
    {files : List (List String)} (hleads : w.tree.LeadsTo r₀.output place e) (hlinks : e.HasNoLink)
    (hsources : c.sources project w = .ok files)
    (hseparate : AreSeparate project place files w.tree)
    (hprepare : (c.withChunkSize size h).prepare project w₁ = (.ok r, w'))
    (hplays : Plays (c.withChunkSize size h) (.fixed outcomes) r w' trials r' w'')
    (hover : r'.IsOver) : r.project = project ∧ r.output = r₀.output ∧
      ∃ failures, Leaves c.settings.maxAttempts outcomes r place files w
        (conclude project w'').2 trials failures := by
  have hready := hprepare
  rw [prepare_withChunkSize, hbase] at hready
  dsimp only at hready
  obtain ⟨hr, rfl⟩ := Prod.mk.inj hready
  have hsame : r.output = r₀.output := by
    cases hr
    rfl
  rw [← hsame] at hleads
  obtain ⟨files', hsources', -, hproject, houtput, hfolder, hshows, hbalanced⟩ :=
    balanced_of_prepare hsound hfresh hprepare ⟨place, e, hleads, hlinks⟩
  obtain ⟨-, -, -, -, -, -, -, -, -, hclaims, -⟩ := prepare_start hprepare
  cases hsources.symm.trans hsources'
  rw [← hproject] at hbalanced houtput hfolder hclaims hseparate ⊢
  exact ⟨rfl, hsame, leaves_of_isOver (c := c.withChunkSize size h) hplays hover hshows hbalanced
    hfolder houtput hclaims (isLaidOut_of_prepare hprepare hleads hlinks) hseparate⟩

/-- All conversions end alike, whatever the order of their moves and the sizes of their chunks. -/
def EndsOneWay (c : Converter σ) (outcomes : List String → Nat → Except Incident String)
    (project : String) (w₁ : Workshop σ) : Prop :=
  ∀ size (h : 0 < size) size' (h' : 0 < size') w w',
    (c.withChunkSize size h).Ends (.fixed outcomes) project w₁ w →
    (c.withChunkSize size' h').Ends (.fixed outcomes) project w₁ w' → EndsAlike project w w'

/-- **The end of a conversion does not depend on the order of its moves or on the size of its
chunks**, and a quiet strategy always lets it come to an end. -/
theorem endsOneWay_of_isSeparate (c : Converter σ)
    (outcomes : List String → Nat → Except Incident String) (hsound : w₀.tree.top.IsSound)
    (hbegin : beginRecord project {} w₀ = (.ok (), w₁))
    (hseparate : ∀ r w, c.prepare project w₁ = (.ok r, w) → c.IsSeparate project r w) :
    c.EndsOneWay outcomes project w₁ ∧
    (IsQuiet outcomes → ∀ size (h : 0 < size) r w trials r' w',
      (c.withChunkSize size h).prepare project w₁ = (.ok r, w) →
      Plays (c.withChunkSize size h) (.fixed outcomes) r w trials r' w' →
      ∃ more r'' w'', Plays (c.withChunkSize size h) (.fixed outcomes) r' w' more r'' w'' ∧
        r''.IsOver) := by
  obtain ⟨htree, hfresh⟩ := tree_and_record_of_begin hbegin
  rw [← htree] at hsound
  refine ⟨fun size h size' h' w w' hends hends' => ?_, ?_⟩
  · cases hbase : c.prepare project w₁ with
    | mk result w₂ =>
        have hother : ∀ (size : Nat) (h : 0 < size), (c.withChunkSize size h).prepare project w₁ =
            (result.map fun r => { r with queue := chunksOf size r.queue.flatten }, w₂) := by
          intro size h
          rw [prepare_withChunkSize, hbase]
        cases result with
        | error incident =>
            have hfailed : ((w₂.fail project (lastWords incident)).record project).failed =
                .list (([] : List FileFailure).map FileFailure.toDocument) := by
              have hrecord := prepare_error hfresh hbase
              rw [Workshop.fail_record hrecord.status]
              exact hrecord.failed
            cases hends with
            | settled hprepare => cases (hother size h).symm.trans hprepare
            | failed hprepare =>
                cases hends' with
                | settled hprepare' => cases (hother size' h').symm.trans hprepare'
                | failed hprepare' =>
                    cases (hother size h).symm.trans hprepare
                    cases (hother size' h').symm.trans hprepare'
                    exact .refl hfailed
        | ok r₀ =>
            obtain ⟨place, e, files, hleads, hlinks, hsources, hfiles⟩ := hseparate r₀ w₂ hbase
            cases hends with
            | failed hprepare => cases (hother size h).symm.trans hprepare
            | settled hprepare hplays hover =>
                cases hends' with
                | failed hprepare' => cases (hother size' h').symm.trans hprepare'
                | settled hprepare' hplays' hover' =>
                    obtain ⟨hproject, houtput, failures, hleaves⟩ := exists_leaves_of_settled size h
                      hsound hfresh hbase hleads hlinks hsources hfiles hprepare hplays hover
                    obtain ⟨hproject', houtput', failures', hleaves'⟩ := exists_leaves_of_settled
                      size' h' hsound hfresh hbase hleads hlinks hsources hfiles hprepare' hplays'
                      hover'
                    have halike := hleaves.endsAlike hleaves' (hproject'.trans hproject.symm)
                      (houtput'.trans houtput.symm)
                    rwa [hproject] at halike
  · intro hquiet size h r w trials r' w' hprepare hplays
    obtain ⟨_, -, -, -, htasks, -⟩ := prepare_start hprepare
    have hkept : ∀ t ∈ r'.tasks, t.abandonment? = none := by
      clear hprepare
      induction hplays with
      | start => rw [htasks]; simp
      | next h hmove ih => exact kept_of_played hquiet hmove ih
    exact exists_isOver hquiet hkept

/-! ### Two small files -/

theorem sorted_pair : ["a.php", "b.php"].Pairwise fun a b => a ≤ b := by decide

/-- Both files are there. -/
theorem leadsTo_pair (utilities : List (String × Entry)) : ∀ name ∈ ["a.php", "b.php"],
    (FileTree.small ["a.php", "b.php"] utilities).LeadsTo ["demo", name] ["demo", name]
      (.file ByteArray.empty) := by
  intro name hname
  simp only [List.mem_cons, List.not_mem_nil, or_false] at hname
  rcases hname with rfl | rfl
  · exact leadsTo_small rfl (fun _ h => by cases h) (by decide) (by decide)
  · exact leadsTo_small rfl (fun _ h => by cases h) (by decide) (by decide)

theorem sourceText_of_empty {t : FileTree} {path place : List String}
    (h : t.LeadsTo path place (.file ByteArray.empty)) : sourceText t path = .ok "" :=
  (sourceText_of_leadsTo (show t.LeadsTo path place (.file (Text.Utf8.encode "")) from h)).trans
    (congrArg Except.ok (by decide))

/-- They are separate, whatever is among the utilities. -/
theorem areSeparate_pair (utilities : List (String × Entry)) :
    AreSeparate "demo" ["demo", "converted"] [["a.php"], ["b.php"]]
      (.small ["a.php", "b.php"] utilities) := by
  have hdemo : Workshop.folderOf "demo" = ["demo"] := by decide
  have hname : ∀ file ∈ [["a.php"], ["b.php"]], ∃ name ∈ ["a.php", "b.php"], file = [name] := by
    simp
  refine ⟨fun file hfile => ?_, fun file hfile file' hfile' content content' hread hread' heq => ?_⟩
  · obtain ⟨name, hmem, rfl⟩ := hname file hfile
    rw [hdemo]
    refine FileTree.readsApart_of_leadsTo (leadsTo_pair utilities name hmem) ?_
    rintro ⟨other, -, content, -, hplace⟩
    have hsame : name = "converted" :=
      (List.cons_eq_cons.mp (List.cons_eq_cons.mp hplace).2).1
    rw [hsame] at hmem
    exact absurd hmem (by decide)
  · have hempty : ∀ {file : List String} {content : String}, file ∈ [["a.php"], ["b.php"]] →
        sourceText (.small ["a.php", "b.php"] utilities) (Workshop.folderOf "demo" ++ file) =
          .ok content → content = "" := by
      intro file content hfile hread
      obtain ⟨name, hmem, rfl⟩ := hname file hfile
      rw [hdemo] at hread
      cases hread.symm.trans (sourceText_of_empty (leadsTo_pair utilities name hmem))
      rfl
    rw [hempty hfile hread, hempty hfile' hread'] at heq
    have hall : ∀ file ∈ [["a.php"], ["b.php"]], ∀ file' ∈ [["a.php"], ["b.php"]],
        (Mapping.ofFile (Path.join file) "").target =
          (Mapping.ofFile (Path.join file') "").target → file = file' := by decide
    exact hall file hfile file' hfile' heq

theorem sources_pair {utilities : List (String × Entry)} {w : Workshop Unit}
    (htree : w.tree = .small ["a.php", "b.php"] utilities) :
    small.sources "demo" w = .ok [["a.php"], ["b.php"]] :=
  sources_small htree sorted_pair (by decide)

/-- Two files end alike one at a time and together. -/
theorem endsOneWay_pair : ∃ w₁ w w' : Workshop Unit,
    (FileTree.small ["a.php", "b.php"] []).top.IsSound ∧
    beginRecord "demo" {} (.small ["a.php", "b.php"] []) = (.ok (), w₁) ∧
    (∀ r w, small.prepare "demo" w₁ = (.ok r, w) → small.IsSeparate "demo" r w) ∧
    (small.withChunkSize 1 (by decide)).Ends (.fixed fun _ _ => .ok "1") "demo" w₁ w ∧
    (small.withChunkSize 2 (by decide)).Ends (.fixed fun _ _ => .ok "1") "demo" w₁ w' ∧
    EndsAlike "demo" w w' := by
  obtain ⟨w₁, w, hbegin, hprepare, htree⟩ :=
    exists_prepare_begun [] sorted_pair (by decide) (List.cons_ne_nil _ _)
  have hseparate : ∀ r w, small.prepare "demo" w₁ = (.ok r, w) → small.IsSeparate "demo" r w := by
    intro r w' hready
    cases hprepare.symm.trans hready
    refine ⟨_, .skeleton [], _, ?_, hasNoLink_skeleton nofun, sources_pair htree,
      htree ▸ areSeparate_pair []⟩
    rw [htree]
    exact leadsTo_small rfl (fun _ h => by cases h) (by decide) (by decide)
  obtain ⟨halike, hends⟩ := endsOneWay_of_isSeparate small (fun _ _ => .ok "1") isSound_pair hbegin
    hseparate
  have hquiet : IsQuiet fun _ _ => .ok "1" := fun _ _ _ h => by cases h
  have hexists : ∀ (size : Nat) (h : 0 < size), ∃ w,
      (small.withChunkSize size h).Ends (.fixed fun _ _ => .ok "1") "demo" w₁ w := by
    intro size h
    have hready : (small.withChunkSize size h).prepare "demo" w₁ = _ :=
      prepare_withChunkSize size h w₁
    rw [hprepare] at hready
    obtain ⟨_, _, _, hplays, hover⟩ := hends hquiet size h _ _ _ _ _ hready .start
    exact ⟨_, .settled hready hplays hover⟩
  obtain ⟨w₂, hone⟩ := hexists 1 (by decide)
  obtain ⟨w₃, htwo⟩ := hexists 2 (by decide)
  exact ⟨w₁, w₂, w₃, isSound_pair, hbegin, hseparate, hone, htwo, halike _ _ _ _ _ _ hone htwo⟩

/-! ### Two files, one behind the other -/

/-- Files that are converted can be settled, and then nothing more is written. -/
theorem exists_isOver_of_converted (c : Converter σ) (strategy : Strategy) (hqueue : r.queue = [])
    (hall : ∀ t ∈ r.tasks, t.isSettled = true ∨ ∃ m, t.standing = .converted m) :
    ∃ r' w', Plays c strategy r w [] r' w' ∧ r'.IsOver ∧ w'.tree = w.tree := by
  induction hn : r.left using Nat.strongRecOn generalizing r w with
  | _ n ih =>
      by_cases hsettled : ∀ t ∈ r.tasks, t.isSettled = true
      · exact ⟨r, w, .start, ⟨hsettled, hqueue⟩, rfl⟩
      · push Not at hsettled
        obtain ⟨⟨file, standing⟩, ht, hunsettled⟩ := hsettled
        obtain ⟨place, hplace⟩ := List.mem_iff_getElem?.mp ht
        obtain ⟨m, rfl⟩ : ∃ m, standing = .converted m := (hall _ ht).resolve_left hunsettled
        have hmove : Played c strategy (.settle place) none r w (setStanding r place file .settled)
            ((w.addMapping r.project m).settle r.project none).2 :=
          .settle (by unfold settleFile; rw [hplace])
        have hless : r.left = (setStanding r place file .settled).left + 1 :=
          Run.left_setStanding hplace rfl _
        obtain ⟨r', w', hplays, hover, htree⟩ := ih _ (by omega) (r := setStanding r place file
            .settled) (w := ((w.addMapping r.project m).settle r.project none).2) hqueue
          (by
            intro t ht
            rcases List.mem_or_eq_of_mem_set ht with ht | rfl
            · exact hall t ht
            · exact .inl rfl) rfl
        refine ⟨r', w', (Plays.start.next hmove).trans hplays, hover, htree.trans ?_⟩
        exact Workshop.enter_tree _

/-- Two files of one chunk can be attempted one behind the other. -/
theorem exists_ends_of_writeFile (strategy : Strategy) {a b : List String}
    (hprepare : c.prepare project w₁ = (.ok r, w)) (hqueue : r.queue = [[a, b]])
    (hrecord : (w.record r.project).status = .inProgress) {i j : Nat}
    {file file' path path' : List String} {content content' code code' : String} {t t' : FileTree}
    (hfirst : ([⟨a, .waiting 1⟩, ⟨b, .waiting 1⟩] : List Task)[i]? = some ⟨file, .waiting 1⟩)
    (hsecond : ∀ m, (([⟨a, .waiting 1⟩, ⟨b, .waiting 1⟩] : List Task).set i
      ⟨file, .converted m⟩)[j]? = some ⟨file', .waiting 1⟩)
    (hboth : ∀ m m', ∀ t ∈ ((([⟨a, .waiting 1⟩, ⟨b, .waiting 1⟩] : List Task).set i
      ⟨file, .converted m⟩).set j ⟨file', .converted m'⟩), ∃ m, t.standing = .converted m)
    (hs : strategy file 1 (.ok code)) (hs' : strategy file' 1 (.ok code'))
    (hread : sourceText w.tree (Workshop.folderOf project ++ file) = .ok content)
    (hread' : sourceText t (Workshop.folderOf project ++ file') = .ok content')
    (hpath : r.output ++ Path.parts (Claims.claim (Path.join file)
      (Mapping.ofFile (Path.join file) content).target []).1 = path)
    (hpath' : r.output ++ Path.parts (Claims.claim (Path.join file')
      (Mapping.ofFile (Path.join file') content').target (Claims.claim (Path.join file)
        (Mapping.ofFile (Path.join file) content).target []).2).1 = path')
    (hwrite : Skeleton.writeFile path code w.tree = (.ok (), t))
    (hwrite' : Skeleton.writeFile path' code' t = (.ok (), t')) :
    ∃ w', c.Ends strategy project w₁ w' ∧ w'.tree = t' := by
  rw [← hpath] at hwrite
  rw [← hpath'] at hwrite'
  obtain ⟨-, -, -, hproject, htasks, -, -, -, -, hclaims, -⟩ := prepare_start hprepare
  have hclaims : w.claimsOf r.project = [] := hproject ▸ hclaims
  have hdispatch := dispatch_of_inProgress (r := r) (w := w) (by rw [htasks]; simp) hqueue hrecord
  obtain ⟨m, w₂, -, hplayed, htree, hclaims₂, hledger⟩ := exists_played_of_writeFile c
    (r := { r with tasks := [⟨a, .waiting 1⟩, ⟨b, .waiting 1⟩], queue := [] }) hfirst hs
    (hproject ▸ hread) (by
      unfold given
      dsimp only
      rw [hclaims]
      exact hwrite)
  dsimp only at hclaims₂
  rw [hclaims] at hclaims₂
  obtain ⟨m', w₃, -, hplayed', htree', -, -⟩ := exists_played_of_writeFile c
    (r := setStanding { r with tasks := [⟨a, .waiting 1⟩, ⟨b, .waiting 1⟩], queue := [] } i file
      (.converted m)) (w := w₂) (hsecond m) hs' (by rw [htree]; exact hproject ▸ hread') (by
      unfold given
      dsimp only [setStanding]
      rw [htree, hclaims₂]
      exact hwrite')
  obtain ⟨r', w', hplays, hover, hsame⟩ := exists_isOver_of_converted c strategy (w := w₃)
    (r := setStanding (setStanding { r with
      tasks := [⟨a, .waiting 1⟩, ⟨b, .waiting 1⟩], queue := [] } i file (.converted m)) j file'
      (.converted m')) rfl fun t ht => .inr (hboth m m' t ht)
  refine ⟨_, .settled hprepare ((((Plays.start.next (.dispatch hdispatch)).next hplayed).next
    hplayed').trans hplays) hover, ?_⟩
  rw [conclude_tree, hsame, htree']

/-! ### Links by which files meet -/

/-- A file elsewhere keeps its content when a file is written. -/
theorem leadsTo_of_writeFile {t t' : FileTree} {path place other there : List String}
    {old content : ByteArray} {code : String} (h : t.LeadsTo path place (.file old))
    (hother : t.LeadsTo other there (.file content)) (hne : there ≠ place)
    (hwrite : Skeleton.writeFile path code t = (.ok (), t')) :
    t'.LeadsTo other there (.file content) := by
  obtain ⟨hbuilt, -⟩ := Skeleton.built_writeFile path code t
  rw [hwrite] at hbuilt
  refine hbuilt.leadsTo_file hother fun hwritten => hne ?_
  obtain ⟨e, hleads, -⟩ := hbuilt.grown.leadsTo h
  exact (hwritten.unique hleads).1

/-- The outcome for one file is a text, and the outcome for all others another one. -/
def twoTexts (file : List String) (code code' : String) (other : List String) (_ : Nat) :
    Except Incident String :=
  .ok (if other = file then code else code')

/-- Where a link leads from the path of one file to that of another, the text is kept that is written
last. -/
theorem not_endsOneWay_linked : ∃ w₁ w : Workshop Unit,
    beginRecord "demo" {} (.small ["a.php", "b.php"] linkedUtilities) = (.ok (), w₁) ∧
    small.prepare "demo" w₁ = (.ok ⟨"demo", ["demo", "converted"], [],
      chunksOf 1 (["a.php", "b.php"].map fun n => [n])⟩, w) ∧
    small.sources "demo" w = .ok [["a.php"], ["b.php"]] ∧
    AreSeparate "demo" ["demo", "converted"] [["a.php"], ["b.php"]] w.tree ∧
    ¬ small.EndsOneWay (twoTexts ["a.php"] "1" "2") "demo" w₁ := by
  obtain ⟨w₁, w, hbegin, hprepare, htree⟩ :=
    exists_prepare_begun linkedUtilities sorted_pair (by decide) (List.cons_ne_nil _ _)
  refine ⟨w₁, w, hbegin, hprepare, sources_pair htree, htree ▸ areSeparate_pair _, fun halike => ?_⟩
  have hready : (small.withChunkSize 2 (by decide)).prepare "demo" w₁ =
      (.ok ⟨"demo", ["demo", "converted"], [], [[["a.php"], ["b.php"]]]⟩, w) := by
    rw [prepare_withChunkSize, hprepare]
    show (Except.ok (⟨_, _, [], chunksOf 2 (chunksOf 1 [["a.php"], ["b.php"]]).flatten⟩ : Run), w) = _
    rw [show chunksOf 2 (chunksOf 1 [["a.php"], ["b.php"]]).flatten = [[["a.php"], ["b.php"]]] by
      rw [flatten_chunksOf Nat.one_pos]
      exact chunksOf_of_length_le (List.cons_ne_nil _ _) Nat.le.refl]
  obtain ⟨files, -, -, -, -, -, -, -, -, -, hrecord⟩ :=
    prepare_ok (tree_and_record_of_begin hbegin).2 hprepare
  obtain ⟨hlink, hfile, hfolder⟩ := leadsTo_linked
  have hpair := leadsTo_pair linkedUtilities
  rw [← htree] at hlink hfile hfolder hpair
  have hread := fun name hname => sourceText_of_empty (hpair name hname)
  obtain ⟨t₁, t₂, hfirst, hsecond, hlast⟩ :=
    exists_writeFile_of_leadsTo hlink hfile hfolder hfolder "1" "2"
  obtain ⟨t₁', t₂', hfirst', hsecond', hlast'⟩ :=
    exists_writeFile_of_leadsTo hfile hlink hfolder hfolder "2" "1"
  have hread₁ := sourceText_of_empty
    (leadsTo_of_writeFile hlink (hpair "b.php" (by decide)) (by decide) hfirst)
  have hread₁' := sourceText_of_empty
    (leadsTo_of_writeFile hfile (hpair "a.php" (by decide)) (by decide) hfirst')
  have hdemo : Workshop.folderOf "demo" = ["demo"] := by decide
  obtain ⟨w₂, hends, htree₂⟩ := exists_ends_of_writeFile (.fixed (twoTexts ["a.php"] "1" "2"))
    hready rfl hrecord.status (i := 0) (j := 1) rfl (fun _ => rfl) (by simp) rfl rfl
    (by rw [hdemo]; exact hread "a.php" (by decide)) (by rw [hdemo]; exact hread₁)
    (by decide) (by decide) hfirst hsecond
  obtain ⟨w₃, hends', htree₃⟩ := exists_ends_of_writeFile (.fixed (twoTexts ["a.php"] "1" "2"))
    hready rfl hrecord.status (i := 1) (j := 0) rfl (fun _ => rfl) (by simp) rfl rfl
    (by rw [hdemo]; exact hread "b.php" (by decide)) (by rw [hdemo]; exact hread₁')
    (by decide) (by decide) hfirst' hsecond'
  have hkept := (FileTree.leadsTo_iff.mp hlast).2.2
  have hkept' := (FileTree.leadsTo_iff.mp hlast').2.2
  rw [← htree₂, (halike _ _ _ _ _ _ hends hends').files, htree₃, hkept'] at hkept
  exact absurd (Text.Utf8.encode_injective (Entry.file.inj (Option.some.inj hkept))) (by decide)

/-- The files that two sources are converted to. -/
def peekedUtilities : List (String × Entry) :=
  [("b.ts", .file ByteArray.empty), ("database.ts", .file ByteArray.empty)]

/-- A project one of whose sources is a link to what the other is converted to. -/
def peeking : FileTree :=
  (FileTree.small ["b.php"] peekedUtilities).put ["demo", "database.php"]
    (.link ["demo", "converted", "utils", "b.ts"])

theorem grown_peeking : (FileTree.small ["b.php"] peekedUtilities).Grown peeking := by
  have hdemo : (FileTree.small ["b.php"] peekedUtilities).top.at? ["demo"] = some (.folder
      [("converted", .skeleton peekedUtilities), ("b.php", .file ByteArray.empty)]) := rfl
  refine ⟨rfl, Entry.grown_put ⟨Entry.fits_snoc hdemo "database.php", ?_⟩⟩
  intro e he
  cases he

/-- The link leads to what the other file is converted to. -/
theorem leadsTo_peeking_link : peeking.LeadsTo ["demo", "database.php"]
    ["demo", "converted", "utils", "b.ts"] (.file ByteArray.empty) :=
  FileTree.leadsTo_of_link ["demo"] "database.php" ⟨by decide, by decide⟩ rfl
    (by decide) (by decide) rfl (fun _ h => by cases h) (by decide)
    (by decide)

/-- Both sources are found. -/
theorem sources_peeking {w : Workshop Unit} (htree : w.tree = peeking) :
    small.sources "demo" w = .ok [["b.php"], ["database.php"]] := by
  have hdemo : w.tree.LeadsTo ["demo"] ["demo"] (.folder
      [("converted", .skeleton peekedUtilities), ("b.php", .file ByteArray.empty),
        ("database.php", .link ["demo", "converted", "utils", "b.ts"])]) :=
    htree ▸ FileTree.leadsTo_of_names rfl (fun _ h => by cases h) (by decide) (by decide)
  have hlink : w.tree.isFolder ["demo", "database.php"] = false :=
    htree ▸ leadsTo_peeking_link.isFolder_eq
  exact sources_beside_skeleton hdemo (by simp [hlink]) (by simp [Table.names]) (by decide)

/-- The project is ready when its record has been begun. -/
theorem exists_prepare_peeking : ∃ w₁ w : Workshop Unit,
    beginRecord "demo" {} { tree := peeking, service := () } = (.ok (), w₁) ∧
    small.prepare "demo" w₁ =
      (.ok ⟨"demo", ["demo", "converted"], [], [[["b.php"]], [["database.php"]]]⟩, w) ∧
    w.tree = peeking := by
  obtain ⟨w₁, hbegin, htree⟩ : ∃ w₁ : Workshop Unit,
      beginRecord "demo" {} { tree := peeking, service := () } = (.ok (), w₁) ∧
      w₁.tree = peeking := ⟨_, rfl, rfl⟩
  obtain ⟨w, hprepare, hsame⟩ := prepare_of_grown grown_peeking htree (sources_peeking htree)
    (List.cons_ne_nil _ _)
  rw [chunksOf_one] at hprepare
  exact ⟨w₁, w, hbegin, hprepare, hsame⟩

/-- What is there of the project: the sources, what they are converted to, and the database. -/
theorem leadsTo_peeking : peeking.LeadsTo ["demo", "b.php"] ["demo", "b.php"] (.file .empty) ∧
    peeking.LeadsTo ["demo", "converted", "utils", "b.ts"] ["demo", "converted", "utils", "b.ts"]
      (.file .empty) ∧
    peeking.LeadsTo ["demo", "converted", "utils", "database.ts"]
      ["demo", "converted", "utils", "database.ts"] (.file .empty) ∧
    peeking.LeadsTo ["demo", "converted", "config", "database.ts"]
      ["demo", "converted", "config", "database.ts"] (.file .empty) := by
  refine ⟨?_, ?_, ?_, ?_⟩ <;>
    exact FileTree.leadsTo_of_names rfl (fun _ h => by cases h) (by decide)
      (by decide)

theorem isFolder_peeking : peeking.isFolder ["demo", "converted", "utils"] = true ∧
    peeking.isFolder ["demo", "converted", "config"] = true := by
  have hstands := (stands_small ["b.php"] peekedUtilities "demo").grown grown_peeking
  exact ⟨hstands.folders "utils" (by decide), hstands.folders "config" (by decide)⟩

theorem plain_peeking : ∃ e, peeking.LeadsTo ["demo", "converted"] ["demo", "converted"] e ∧
    e.HasNoLink := by
  refine ⟨.skeleton peekedUtilities, FileTree.leadsTo_of_names rfl (fun _ h => by cases h)
    (by decide) (by decide), hasNoLink_skeleton ?_⟩
  simp [peekedUtilities, Entry.hasNoLink_file]

/-- The sources ask for different paths, as long as nothing has been converted. -/
theorem askApart_peeking : AskApart "demo" [["b.php"], ["database.php"]] peeking := by
  have hdemo : Workshop.folderOf "demo" = ["demo"] := by decide
  have hempty : ∀ {file : List String} {content : String}, file ∈ [["b.php"], ["database.php"]] →
      sourceText peeking (Workshop.folderOf "demo" ++ file) = .ok content → content = "" := by
    intro file content hfile hread
    rw [hdemo] at hread
    simp only [List.mem_cons, List.not_mem_nil, or_false] at hfile
    rcases hfile with rfl | rfl
    · cases hread.symm.trans (sourceText_of_empty leadsTo_peeking.1)
      rfl
    · cases hread.symm.trans (sourceText_of_empty leadsTo_peeking_link)
      rfl
  intro file hfile file' hfile' content content' hread hread' heq
  rw [hempty hfile hread, hempty hfile' hread'] at heq
  have hall : ∀ file ∈ [["b.php"], ["database.php"]], ∀ file' ∈ [["b.php"], ["database.php"]],
      (Mapping.ofFile (Path.join file) "").target =
        (Mapping.ofFile (Path.join file') "").target → file = file' := by decide
  exact hall file hfile file' hfile' heq

/-- Where a source is a link to what another file is converted to, it may be read before or after
that. -/
theorem not_endsOneWay_peeking : ∃ (w₁ w : Workshop Unit) (r : Run),
    beginRecord "demo" {} { tree := peeking, service := () } = (.ok (), w₁) ∧
    small.prepare "demo" w₁ = (.ok r, w) ∧
    small.sources "demo" w = .ok [["b.php"], ["database.php"]] ∧
    (∃ place e, w.tree.LeadsTo r.output place e ∧ e.HasNoLink) ∧
    AskApart "demo" [["b.php"], ["database.php"]] w.tree ∧
    ¬ small.EndsOneWay (twoTexts ["b.php"] connection "1") "demo" w₁ := by
  obtain ⟨w₁, w, hbegin, hprepare, htree⟩ := exists_prepare_peeking
  obtain ⟨e, hplain⟩ := plain_peeking
  refine ⟨w₁, w, _, hbegin, hprepare, sources_peeking htree, ⟨_, e, htree ▸ hplain⟩,
    htree ▸ askApart_peeking, fun halike => ?_⟩
  have hready : (small.withChunkSize 2 (by decide)).prepare "demo" w₁ =
      (.ok ⟨"demo", ["demo", "converted"], [], [[["b.php"], ["database.php"]]]⟩, w) := by
    rw [prepare_withChunkSize, hprepare]
    show (Except.ok (⟨_, _, [], chunksOf 2 [["b.php"], ["database.php"]]⟩ : Run), w) = _
    rw [show chunksOf 2 [["b.php"], ["database.php"]] = [[["b.php"], ["database.php"]]] from
      chunksOf_of_length_le (List.cons_ne_nil _ _) Nat.le.refl]
  obtain ⟨files, -, -, -, -, -, -, -, -, -, hrecord⟩ :=
    prepare_ok (tree_and_record_of_begin hbegin).2 hprepare
  have hdemo : Workshop.folderOf "demo" = ["demo"] := by decide
  obtain ⟨hsource, hutil, hdata, hconfig⟩ := leadsTo_peeking
  obtain ⟨hutils, hconfigs⟩ := isFolder_peeking
  have hlink := leadsTo_peeking_link
  rw [← htree] at hsource hutil hdata hconfig hutils hconfigs hlink
  -- the link first, and then it is empty
  have hfirst := writeFile_of_leadsTo hdata hutils "1"
  have hsecond := writeFile_of_leadsTo (leadsTo_of_writeFile hdata hutil (by decide) hfirst)
    ((FileTree.write_grown (hdata.write_eq _)).isFolder hutils) connection
  obtain ⟨w₂, hends, htree₂⟩ := exists_ends_of_writeFile (.fixed (twoTexts ["b.php"] connection "1"))
    hready rfl hrecord.status (i := 1) (j := 0) rfl (fun _ => rfl) (by simp) rfl rfl
    (by rw [hdemo]; exact sourceText_of_empty hlink)
    (by rw [hdemo]; exact sourceText_of_empty (leadsTo_of_writeFile hdata hsource (by decide) hfirst))
    (by decide) (by decide) hfirst hsecond
  have hkept := leadsTo_of_writeFile (leadsTo_of_writeFile hdata hutil (by decide) hfirst)
    (hdata.of_write hdata (hdata.write_eq _)) (by decide) hsecond
  -- the other file first, and then the link leads to what it was converted to
  have hfirst' := writeFile_of_leadsTo hutil hutils connection
  have hconfig' := leadsTo_of_writeFile hutil hconfig (by decide) hfirst'
  have hsecond' := writeFile_of_leadsTo hconfig'
    ((FileTree.write_grown (hutil.write_eq _)).isFolder hconfigs) "1"
  have hread : sourceText (w.tree.put ["demo", "converted", "utils", "b.ts"]
      (.file (Text.Utf8.encode connection))) ["demo", "database.php"] = .ok connection :=
    (sourceText_of_leadsTo (hutil.of_write hlink (hutil.write_eq _))).trans
      (congrArg Except.ok (by decide))
  obtain ⟨w₃, hends', htree₃⟩ := exists_ends_of_writeFile
    (.fixed (twoTexts ["b.php"] connection "1")) hready rfl hrecord.status (i := 0) (j := 1)
    rfl (fun _ => rfl) (by simp) rfl rfl
    (by rw [hdemo]; exact sourceText_of_empty hsource) (by rw [hdemo]; exact hread)
    (by decide) (by decide) hfirst' hsecond'
  have hlost := leadsTo_of_writeFile hconfig'
    (leadsTo_of_writeFile hutil hdata (by decide) hfirst') (by decide) hsecond'
  have hthere := (FileTree.leadsTo_iff.mp hkept).2.2
  rw [← htree₂, (halike _ _ _ _ _ _ hends hends').files, htree₃,
    (FileTree.leadsTo_iff.mp hlost).2.2] at hthere
  have hsame : Text.Utf8.encode "" = Text.Utf8.encode "1" := Entry.file.inj (Option.some.inj hthere)
  exact absurd (Text.Utf8.encode_injective hsame) (by decide)

/-- Files that ask for different paths may still meet: by a link in the output, although no source is
read from there, and by a source that is a link, although there is none in the output. -/
theorem not_endsOneWay_of_link :
    (¬ ∀ (outcomes : List String → Nat → Except Incident String) (w₀ w₁ w : Workshop Unit)
      (r : Run) (files : List (List String)), beginRecord "demo" {} w₀ = (.ok (), w₁) →
      small.prepare "demo" w₁ = (.ok r, w) → small.sources "demo" w = .ok files →
      AreSeparate "demo" r.output files w.tree → small.EndsOneWay outcomes "demo" w₁) ∧
    ¬ ∀ (outcomes : List String → Nat → Except Incident String) (w₀ w₁ w : Workshop Unit)
      (r : Run) (files : List (List String)), beginRecord "demo" {} w₀ = (.ok (), w₁) →
      small.prepare "demo" w₁ = (.ok r, w) → small.sources "demo" w = .ok files →
      (∃ place e, w.tree.LeadsTo r.output place e ∧ e.HasNoLink) → AskApart "demo" files w.tree →
      small.EndsOneWay outcomes "demo" w₁ := by
  refine ⟨fun hall => ?_, fun hall => ?_⟩
  · obtain ⟨w₁, w, hbegin, hprepare, hsources, hseparate, hnot⟩ := not_endsOneWay_linked
    exact hnot (hall _ _ _ _ _ _ hbegin hprepare hsources hseparate)
  · obtain ⟨w₁, w, r, hbegin, hprepare, hsources, hplain, hask, hnot⟩ := not_endsOneWay_peeking
    exact hnot (hall _ _ _ _ _ _ hbegin hprepare hsources hplain hask)

end Converter

end PhpMigration
