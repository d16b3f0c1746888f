/-
Conversions of a project that overlap.

A stop ends the record of a project at once, and then the project may be started again while files
of the stopped conversion are still attempted.  From there on that conversion acts on the record of
the new one: what it settles is counted there, it does not find the stop any more and goes on to
its next chunk, and if it comes to its end first, it completes the record.  Whatever comes next for
it, one of these can happen (`Overlaps.exists_not_isIsolated`), so keeping the conversions apart is
not only enough, it is needed.
-/
import PhpMigration.Proofs.Project.Isolation

namespace PhpMigration

variable {σ : Type}

/-! ### What a preparation depends on -/

namespace Converter

variable {c : Converter σ} {project : String} {w w' : Workshop σ}

/-- Whether a conversion gets ready depends on the files alone. -/
theorem prepare_of_tree (h : w.tree = w'.tree) :
    (c.prepare project w).1 = (c.prepare project w').1 := by
  have hupdate : ∀ change, (w.update project change).tree = (w'.update project change).tree := by
    intro change
    unfold Workshop.update
    rw [Workshop.enter_tree, Workshop.enter_tree, h]
  obtain ⟨hresult, htree⟩ := laySkeleton_of_tree (c := c)
    (hupdate { step := some (.text "creating_structure") })
  unfold prepare
  rw [needFolder_of_tree h]
  cases needFolder project w' with
  | error cause => rfl
  | ok u =>
      dsimp only
      generalize c.laySkeleton project (w.update project _) = laid at hresult htree ⊢
      generalize c.laySkeleton project (w'.update project _) = laid' at hresult htree ⊢
      obtain ⟨result, w₁⟩ := laid
      obtain ⟨result', w₁'⟩ := laid'
      obtain rfl : result = result' := hresult
      cases result with
      | error cause => rfl
      | ok output =>
          have hsources : c.needSources project w₁ = c.needSources project w₁' := by
            unfold needSources sources
            rw [show w₁.tree = w₁'.tree from htree]
          dsimp only
          rw [hsources]
          cases c.needSources project w₁' <;> rfl

/-- What the next move is about is a file that has still something to come. -/
theorem exists_task_of_nextFrom {tasks : List Task} {n : Nat} {m : Move}
    (h : nextFrom n tasks = some m) : ∃ (place : Nat) (t : Task), tasks[place]? = some t ∧
      t.isSettled = false ∧ t.abandonment? = none := by
  induction tasks generalizing n with
  | nil => cases h
  | cons first rest ih =>
      obtain ⟨file, standing⟩ := first
      cases standing with
      | settled =>
          obtain ⟨place, t, ht⟩ := ih h
          exact ⟨place + 1, t, ht⟩
      | abandoned cause =>
          obtain ⟨place, t, ht⟩ := ih h
          exact ⟨place + 1, t, ht⟩
      | _ => exact ⟨0, _, rfl, rfl, rfl⟩

end Converter

/-! ### A conversion that is not the last one -/

/-- An earlier conversion is at `r` while the record is that of a conversion which has been begun
since. -/
structure Conversions.Overlaps (s : Conversions σ) (project : String) (i : Nat) (r : Run) : Prop where
  venture : ∃ v, s.ventures[i]? = some v ∧ v.phase = .moving r
  earlier : i + 1 < s.ventures.length
  project_eq : r.project = project
  fresh : ∃ v, s.ventures.getLast? = some v ∧ v.files = none
  record : ∃ total, (s.record project).IsUnderWay 0 total []
  counted : s.counted = []

namespace Conversions

variable {c : Converter σ} {s : Conversions σ} {project : String} {i : Nat}
  {r : Run}

theorem getLast?_set {α : Type} {l : List α} {i : Nat} (h : i + 1 < l.length) (x : α) :
    (l.set i x).getLast? = l.getLast? := by
  rw [List.getLast?_eq_getElem?, List.getLast?_eq_getElem?, List.length_set,
    List.getElem?_set_ne (by omega)]

/-- An act of the earlier conversion that settles no file. -/
theorem Overlaps.advance (h : s.Overlaps project i r) {v : Venture} {r' : Run} {w : Workshop σ}
    (hphase : v.phase = .moving r') (hproject : r'.project = project)
    (hrecord : ∃ total, (w.record project).IsUnderWay 0 total []) :
    (s.advance project i v w).Overlaps project i r' := by
  obtain ⟨total, hbefore⟩ := h.record
  obtain ⟨total', hafter⟩ := hrecord
  have hlength : (s.ventures.set i v).length = s.ventures.length := List.length_set
  have hlt := h.earlier
  refine ⟨⟨v, ?_, hphase⟩, ?_, hproject, ?_, ⟨total', hafter⟩, ?_⟩
  · exact List.getElem?_set_self (by omega)
  · show i + 1 < (s.ventures.set i v).length
    omega
  · show ∃ u, (s.ventures.set i v).getLast? = some u ∧ _
    rw [getLast?_set hlt]
    exact h.fresh
  · rw [advance_counted_of_eq (hafter.completed.trans hbefore.completed.symm)]
    exact h.counted

variable (apart : Bool)

/-- So does a move of it, if it is no settlement. -/
theorem Overlaps.move (h : s.Overlaps project i r) {m : Move} {trial : Option Trial} {r' : Run}
    {w : Workshop σ} (hm : Moved c m trial r s.workshop r' w) (hzero : m.settlements = 0) :
    ∃ s', Acted c project apart s s' ∧ s'.Overlaps project i r' := by
  obtain ⟨v, hv, hphase⟩ := h.venture
  obtain rfl := h.project_eq
  refine ⟨_, .move hv hphase hm, h.advance rfl hm.project ?_⟩
  obtain ⟨total, hrecord⟩ := h.record
  rcases hm.ledger_cases with ⟨-, hledger⟩ | ⟨_, _, hone, -⟩
  · refine ⟨total, ?_⟩
    unfold Workshop.record
    rw [hledger]
    exact hrecord
  · rw [hzero] at hone
    cases hone

/-- A file that the earlier conversion settles is counted in a record that is not its own. -/
theorem Overlaps.settle (h : s.Overlaps project i r) {m : Move} {trial : Option Trial} {r' : Run}
    {w : Workshop σ} (hm : Moved c m trial r s.workshop r' w) (hone : m.settlements = 1) :
    ∃ s', Acted c project apart s s' ∧ ¬ s'.IsIsolated project := by
  obtain ⟨v, hv, hphase⟩ := h.venture
  obtain rfl := h.project_eq
  refine ⟨_, .move hv hphase hm, ?_⟩
  intro hisolated
  obtain ⟨total, hbefore⟩ := h.record
  obtain ⟨failures, hafter⟩ := hm.isUnderWay hbefore
  have hcounted : (s.advance r.project i (v.after m r') w).counted = [i] := by
    rw [advance_counted_of_ne, h.counted]
    · rfl
    · rw [hafter.completed, hone]
      intro heq
      injection heq.trans hbefore.completed with heq
      injection heq with heq
      omega
  have hown := hisolated.own i (by rw [hcounted]; exact List.mem_singleton_self i)
  have hlength : (s.advance r.project i (v.after m r') w).ventures.length = s.ventures.length :=
    List.length_set
  have hlt := h.earlier
  omega

/-- Every attempt at a file may fail until no more are allowed. -/
theorem Overlaps.exists_failed {place n : Nat} {file : List String}
    (h : s.Overlaps project i r) (ht : r.tasks[place]? = some ⟨file, .waiting n⟩) :
    ∃ s' r' cause, Reached c project apart s s' ∧ s'.Overlaps project i r' ∧
      r'.tasks[place]? = some ⟨file, .failed cause⟩ := by
  induction hleft : c.settings.maxAttempts - n generalizing s r n with
  | zero =>
      have hm := Moved.missed (c := c) ht (.unread .endlessWait (w := s.workshop))
      obtain ⟨s', hact, hs'⟩ := h.move apart hm rfl
      refine ⟨s', _, .endlessWait, .next .here hact, hs', ?_⟩
      rw [Converter.afterFailure_standing _ _ _ _ rfl, if_neg (by omega)]
      exact List.getElem?_set_self (List.getElem?_eq_some_iff.mp ht).1
  | succ k ih =>
      have hm := Moved.missed (c := c) ht (.unread .endlessWait (w := s.workshop))
      obtain ⟨s', hact, hs'⟩ := h.move apart hm rfl
      rw [Converter.afterFailure_standing _ _ _ _ rfl, if_pos (by omega)] at hs'
      obtain ⟨s'', r'', cause, hreached, hs'', htask⟩ := ih hs'
        (List.getElem?_set_self (List.getElem?_eq_some_iff.mp ht).1) (by omega)
      exact ⟨s'', r'', cause, Reached.trans (.next .here hact) hreached, hs'', htask⟩

/-- A file that has still something to come is settled in the end. -/
theorem Overlaps.exists_not_isIsolated_of_task {place : Nat} {t : Task}
    (h : s.Overlaps project i r) (ht : r.tasks[place]? = some t) (hsettled : t.isSettled = false)
    (hkept : t.abandonment? = none) :
    ∃ s', Reached c project apart s s' ∧ ¬ s'.IsIsolated project := by
  obtain ⟨file, standing⟩ := t
  cases standing with
  | settled => cases hsettled
  | abandoned cause => cases hkept
  | converted m =>
      have hm : Moved c (.settle place) none r s.workshop _ _ :=
        .settle (by unfold Converter.settleFile; rw [ht])
      obtain ⟨s', hact, hs'⟩ := h.settle apart hm rfl
      exact ⟨s', .next .here hact, hs'⟩
  | failed cause =>
      have hm : Moved c (.settle place) none r s.workshop _ _ :=
        .settle (by unfold Converter.settleFile; rw [ht])
      obtain ⟨s', hact, hs'⟩ := h.settle apart hm rfl
      exact ⟨s', .next .here hact, hs'⟩
  | waiting n =>
      obtain ⟨s', r', cause, hreached, hs', htask⟩ := h.exists_failed (c := c) apart ht
      have hm : Moved c (.settle place) none r' s'.workshop _ _ :=
        .settle (by unfold Converter.settleFile; rw [htask])
      obtain ⟨s'', hact, hs''⟩ := hs'.settle apart hm rfl
      exact ⟨s'', hreached.next hact, hs''⟩

/-- A conversion that has settled all its files completes a record that is not its own. -/
theorem Overlaps.finish (h : s.Overlaps project i r) (hmoves : Converter.nextMove r = none)
    (hkept : r.tasks.findSome? Task.abandonment? = none) :
    ∃ s', Acted c project apart s s' ∧ ¬ s'.IsIsolated project := by
  obtain ⟨v, hv, hphase⟩ := h.venture
  obtain ⟨total, hrecord⟩ := h.record
  refine ⟨_, .finish hv hphase hmoves hkept, ?_⟩
  intro hisolated
  have hcompleted : ((Converter.conclude project s.workshop).2.record project).status =
      .completed := by
    rw [Converter.conclude_of_inProgress hrecord.status]
    dsimp only
    rw [Workshop.complete_of_isUnderWay hrecord]
  obtain ⟨u, hu, hfiles⟩ := hisolated.whole hcompleted
  obtain ⟨u', hu', hnone⟩ := h.fresh
  have hlast : (s.ventures.set i { v with phase := .ended }).getLast? = some u := hu
  rw [getLast?_set h.earlier, hu'] at hlast
  cases hlast
  rw [hnone] at hfiles
  cases hfiles

/-- **A conversion that is still under way when another one has been begun can break the
isolation**, whatever it has still to do. -/
theorem Overlaps.exists_not_isIsolated (h : s.Overlaps project i r)
    (hunder : r.tasks.findSome? Task.abandonment? = none ∨ Converter.nextFrom 0 r.tasks ≠ none) :
    ∃ s', Reached c project apart s s' ∧ ¬ s'.IsIsolated project := by
  -- by the chunks that are left, which may be empty
  induction hqueue : r.queue generalizing s r with
  | nil =>
      cases hnext : Converter.nextFrom 0 r.tasks with
      | some m =>
          obtain ⟨place, t, ht, hsettled, hkept⟩ := Converter.exists_task_of_nextFrom hnext
          exact h.exists_not_isIsolated_of_task apart ht hsettled hkept
      | none =>
          have hmoves : Converter.nextMove r = none := by
            unfold Converter.nextMove
            rw [hnext, hqueue]
            rfl
          obtain ⟨s', hact, hs'⟩ := h.finish (c := c) apart hmoves
            (hunder.resolve_right (not_not_intro hnext))
          exact ⟨s', .next .here hact, hs'⟩
  | cons chunk rest ih =>
      cases hnext : Converter.nextFrom 0 r.tasks with
      | some m =>
          obtain ⟨place, t, ht, hsettled, hkept⟩ := Converter.exists_task_of_nextFrom hnext
          exact h.exists_not_isIsolated_of_task apart ht hsettled hkept
      | none =>
          have hkept := hunder.resolve_right (not_not_intro hnext)
          obtain ⟨total, hrecord⟩ := h.record
          have hdispatch : Converter.dispatch r s.workshop = some
              { r with tasks := chunk.map fun file => ⟨file, .waiting 1⟩, queue := rest } :=
            Converter.dispatch_of_inProgress (isSettled_of_nextFrom hnext hkept) hqueue
              (h.project_eq ▸ hrecord.status)
          obtain ⟨s', hact, hs'⟩ := h.move (c := c) apart (.dispatch hdispatch) rfl
          have hwaiting : (chunk.map fun file => (⟨file, .waiting 1⟩ : Task)).findSome?
              Task.abandonment? = none := by
            rw [List.findSome?_eq_none_iff]
            intro t ht
            obtain ⟨file, -, rfl⟩ := List.mem_map.mp ht
            rfl
          obtain ⟨s'', hreached, hs''⟩ := ih hs' (.inl hwaiting) rfl
          exact ⟨s'', Reached.trans (.next .here hact) hreached, hs''⟩

/-! ### Starting again too early -/

/-- What a start leaves behind. -/
theorem began_cases {s' : Conversions σ} (h : Began project s s') :
    s'.ventures = s.ventures ++ [({} : Venture)] ∧ s'.counted = [] ∧
      ∃ total, (s'.record project).IsUnderWay 0 total [] := by
  cases h with
  | accepted hbegin =>
      rename_i count w
      rcases Converter.beginRecord_cases project count s.workshop with
        ⟨incident, hrefused⟩ | ⟨r, haccepted, hfresh⟩
      · rw [hrefused] at hbegin
        cases hbegin
      · rw [haccepted] at hbegin
        cases hbegin
        refine ⟨rfl, rfl, count.getD 0, ?_⟩
        unfold Conversions.record Workshop.record
        rw [Ledger.get_set, if_pos rfl]
        exact hfresh

/-- A start while another conversion is under way can be followed by a breach of the isolation, if
the project can be converted at all. -/
theorem IsApart.exists_not_isIsolated {s' : Conversions σ} (h : s.IsApart project)
    (hready : ∃ (w : Workshop σ) (r : Run), (c.prepare project w).1 = .ok r)
    (hstart : Began project s s') {v : Venture} (hv : v ∈ s.ventures) (hunder : v.IsUnderWay) :
    ∃ s'', Reached c project apart s' s'' ∧ ¬ s''.IsIsolated project := by
  obtain ⟨hventures, hcounted, hrecord⟩ := began_cases hstart
  obtain ⟨i, hi⟩ := List.mem_iff_getElem?.mp hv
  have hlt := (List.getElem?_eq_some_iff.mp hi).1
  have hi' : s'.ventures[i]? = some v := by
    rw [hventures, List.getElem?_append_left hlt]
    exact hi
  have hearlier : i + 1 < s'.ventures.length := by
    rw [hventures, List.length_append, List.length_singleton]
    omega
  have hfresh : ∃ u, s'.ventures.getLast? = some u ∧ u.files = none :=
    ⟨{}, by rw [hventures, List.getLast?_append]; rfl, rfl⟩
  cases hphase : v.phase with
  | ended =>
      unfold Venture.IsUnderWay at hunder
      rw [hphase] at hunder
      exact hunder.elim
  | moving r =>
      have hoverlaps : s'.Overlaps project i r :=
        ⟨⟨v, hi', hphase⟩, hearlier, h.runs i v hi r hphase, hfresh, hrecord, hcounted⟩
      unfold Venture.IsUnderWay at hunder
      rw [hphase] at hunder
      exact hoverlaps.exists_not_isIsolated apart hunder
  | begun =>
      -- the files may become those of a project that can be converted
      obtain ⟨w, r, hr⟩ := hready
      obtain ⟨total, hbegun⟩ := hrecord
      obtain ⟨w₁, htree, hledger⟩ : ∃ w₁ : Workshop σ, w₁.tree = w.tree ∧
          w₁.ledger = s'.workshop.ledger := ⟨{ s'.workshop with tree := w.tree }, rfl, rfl⟩
      have hbefore : w₁.record project = s'.record project := by
        show w₁.ledger.get project = _
        rw [hledger]
        rfl
      have hready := (Converter.prepare_of_tree htree).trans hr
      cases hp : c.prepare project w₁ with
      | mk result w' =>
          rw [hp] at hready
          obtain rfl : result = .ok r := hready
          have hfiles : Acted c project apart s' { s' with workshop := w₁ } :=
            .elsewhere (by rw [hledger])
          obtain ⟨files, -, -, hproject, htasks, -, -, -, -, -, hrecord⟩ :=
            Converter.prepare_ok (by rw [hbefore]; exact hbegun) hp
          have hoverlaps : (Conversions.advance { s' with workshop := w₁ } project i
              { v with phase := .moving r, files := some r.left } w').Overlaps project i r := by
            have hplace : i < s'.ventures.length := by omega
            refine ⟨⟨_, List.getElem?_set_self hplace, rfl⟩, ?_, hproject, ?_, ⟨_, hrecord⟩, ?_⟩
            · show i + 1 < (s'.ventures.set i _).length
              rw [List.length_set]
              exact hearlier
            · show ∃ u, (s'.ventures.set i _).getLast? = some u ∧ _
              rw [getLast?_set hearlier]
              exact hfresh
            · rw [advance_counted_of_eq]
              · exact hcounted
              · show _ = (w₁.record project).completed
                rw [hbefore]
                exact hrecord.completed.trans hbegun.completed.symm
          obtain ⟨s'', hreached, hs''⟩ := hoverlaps.exists_not_isIsolated (c := c)
            apart (.inl (by rw [htasks]; rfl))
          exact ⟨s'', Reached.trans (.next (.next .here hfiles) (.prepared hi' hphase hp))
            hreached, hs''⟩

/-- **The runs of a project are isolated as long as they are kept apart, and a start that does not
keep them apart can be followed by a breach.**  A project that can never be converted has no runs,
so the second part is about one that can be. -/
theorem isIsolated_iff_apart (c : Converter σ) (project : String) {w : Workshop σ}
    (hw : Table.find? w.ledger project = none) {s : Conversions σ}
    (hs : Reached c project true { workshop := w } s) :
    s.IsIsolated project ∧
      ((∃ (w : Workshop σ) (r : Run), (c.prepare project w).1 = .ok r) →
        ∀ s₁, Began project s s₁ →
          ((∀ s₂, Reached c project true s₁ s₂ → s₂.IsIsolated project) ↔
            ∀ v ∈ s.ventures, ¬ v.IsUnderWay)) := by
  have hapart : s.IsApart project := (isApart_of_find?_eq_none hw).of_reached hs
  refine ⟨hapart.isIsolated, fun hready s₁ hstart => ⟨?_, ?_⟩⟩
  · intro hall v hv hunder
    obtain ⟨s₂, hreached, hnot⟩ := hapart.exists_not_isIsolated true hready hstart hv
      hunder
    exact hnot (hall s₂ hreached)
  · intro hover s₂ hreached
    exact ((hapart.start hstart hover).of_reached hreached).isIsolated

/-! ### Stopped and started again -/

/-- The small project before anything has happened. -/
def small : Conversions Unit := { workshop := .small ["a.php"] [] }

/-- It can be started, and when it has been stopped it can be started again, although the first
conversion is not over. -/
theorem exists_began_small : ∃ s₁ s₂ : Conversions Unit, Began "demo" small s₁ ∧
    s₁.ventures = [{}] ∧ Began "demo" (s₁.stop "demo") s₂ :=
  ⟨_, _, @Began.accepted Unit "demo" small none _ rfl, rfl,
    @Began.accepted Unit "demo" _ none _ rfl⟩

theorem exists_prepare_small :
    ∃ (w : Workshop Unit) (r : Run), (Converter.small.prepare "demo" w).1 = .ok r := by
  have hprepare : ∃ w', Converter.small.prepare "demo" (.small ["a.php"] []) = (.ok _, w') ∧ _ :=
    Converter.prepare_small rfl (List.pairwise_singleton _ _) (by decide)
      (List.cons_ne_nil _ _)
  obtain ⟨w', hprepare, -⟩ := hprepare
  exact ⟨_, _, congrArg Prod.fst hprepare⟩

/-- After a stop the first conversion is still under way, and the project can be started again. -/
theorem exists_stopped_small : ∃ s s' : Conversions Unit,
    (∀ apart, Reached Converter.small "demo" apart small s) ∧ Began "demo" s s' ∧
      ∃ v ∈ s.ventures, v.IsUnderWay := by
  obtain ⟨s₁, s₂, hstart, hventures, hagain⟩ := exists_began_small
  refine ⟨_, s₂, fun apart => .next (.next .here (.start hstart ?_)) .stop, hagain, ?_⟩
  · intro _ v hv
    cases hv
  · have hphases : (s₁.stop "demo").ventures.map Venture.phase = [.begun] := by
      unfold Conversions.stop
      dsimp only
      split <;> rw [hventures] <;> rfl
    obtain ⟨v, hv, hphase⟩ := List.mem_map.mp (hphases ▸ List.mem_singleton_self Phase.begun)
    refine ⟨v, hv, ?_⟩
    unfold Venture.IsUnderWay
    rw [hphase]
    trivial

theorem isIsolated_iff_apart_small : ∃ s s' : Conversions Unit,
    Reached Converter.small "demo" true small s ∧ s.IsIsolated "demo" ∧ Began "demo" s s' ∧
      ¬ ∀ s'', Reached Converter.small "demo" true s' s'' → s''.IsIsolated "demo" := by
  obtain ⟨s, s', hreached, hstart, v, hv, hunder⟩ := exists_stopped_small
  obtain ⟨hisolated, hiff⟩ := isIsolated_iff_apart Converter.small "demo"
    (show Table.find? small.workshop.ledger "demo" = none from rfl) (hreached true)
  refine ⟨s, s', hreached true, hisolated, hstart, fun hall => ?_⟩
  exact (hiff exists_prepare_small s' hstart).mp hall v hv hunder

/-- The runs of a project are not isolated whatever comes in between. -/
theorem not_isIsolated_of_reached : ¬ ∀ s, Reached Converter.small "demo" false small s →
    s.IsIsolated "demo" := by
  obtain ⟨s, s', hreached, hstart, v, hv, hunder⟩ := exists_stopped_small
  have hapart : s.IsApart "demo" := (isApart_of_find?_eq_none rfl).of_reached (hreached true)
  obtain ⟨s'', hlater, hnot⟩ :=
    hapart.exists_not_isIsolated false exists_prepare_small hstart hv hunder
  have hagain : Reached Converter.small "demo" false s s' :=
    .next .here (.start hstart fun hno => by cases hno)
  exact fun hall => hnot (hall s'' (((hreached false).trans hagain).trans hlater))

end Conversions

end PhpMigration
