/-
Conversions of a project that are kept apart.

If a start is only asked for when no conversion of the project is under way, the last conversion is
the only one that acts, and `IsApart` says how its record follows it: the record is fresh until the
files are found, then counts the files that are settled, and when it has come to an end it keeps its
counts.  A record that was stopped ends before its conversion does, which is why a stopped
conversion may still settle files, that are counted no more, but finds the stop before it
dispatches another chunk.
-/
import PhpMigration.Proofs.Project.Interleaving

namespace PhpMigration

variable {σ : Type}

/-! ### Records that have come to an end -/

namespace Converter

variable {c : Converter σ} {project : String} {w w' : Workshop σ} {run : Run}

theorem prepare_record_of_isFinal (h : (w.record project).status.IsFinal) :
    (c.prepare project w).2.record project = w.record project := by
  have hlaid : (c.laidOut project w).ledger = w.ledger := by
    unfold laidOut
    rw [laySkeleton_ledger]
    exact Workshop.enter_revise_of_isFinal _ h
  unfold laidOut at hlaid
  obtain ⟨result, w', hp⟩ : ∃ result w', c.prepare project w = (result, w') := ⟨_, _, rfl⟩
  rw [hp]
  cases prepared_of_prepare hp with
  | homeless hfolder => rfl
  | unlaid hfolder hlay =>
      rw [hlay] at hlaid
      exact congrArg (Ledger.get · project) hlaid
  | unfound hfolder hlay hsources =>
      rw [hlay] at hlaid
      exact congrArg (Ledger.get · project) hlaid
  | ready hfolder hlay hsources =>
      rename_i output files w₁
      rw [hlay] at hlaid
      have hforget : (w₁.forget project).record project = w.record project :=
        congrArg (Ledger.get · project) hlaid
      rw [← hforget] at h ⊢
      exact congrArg (Ledger.get · project) (Workshop.enter_revise_of_isFinal _ h)

theorem prepare_project (h : c.prepare project w = (.ok run, w')) : run.project = project := by
  obtain ⟨files, -, -, hproject, -⟩ := prepare_start h
  exact hproject

end Converter

theorem Workshop.fail_record_of_isFinal {w : Workshop σ} {project : String} (message : String)
    (h : (w.record project).status.IsFinal) :
    (w.fail project message).record project = w.record project := by
  unfold Workshop.fail Ledger.fail Ledger.update
  exact congrArg (Ledger.get · project) (Workshop.enter_revise_of_isFinal _ h)

/-- When no move is left and no file was abandoned, all files have been settled. -/
theorem Run.left_of_nextMove {r : Run} (hmoves : Converter.nextMove r = none)
    (hkept : r.tasks.findSome? Task.abandonment? = none) : r.left = 0 := by
  unfold Converter.nextMove at hmoves
  have hnext : Converter.nextFrom 0 r.tasks = none := by
    cases h : Converter.nextFrom 0 r.tasks with
    | none => rfl
    | some m => rw [h] at hmoves; cases hmoves
  rw [hnext] at hmoves
  have hqueue : r.queue = [] := by
    by_cases hempty : r.queue.isEmpty = true
    · exact List.isEmpty_iff.mp hempty
    · simp [hempty] at hmoves
  rw [Run.left_eq_zero_iff, hqueue]
  exact ⟨isSettled_of_nextFrom hnext hkept, fun chunk hchunk => by cases hchunk⟩

/-! ### What is kept -/

/-- How the record of a project follows the last conversion of it, of whose settlements so many are
counted. -/
inductive Follows (record : Record) (counted : Nat) (v : Venture) : Prop
  | begun {total : Nat} (hphase : v.phase = .begun) (hsettled : v.settled = 0)
      (hcounted : counted = 0) (hrecord : record.IsUnderWay 0 total [])
  | moving {r : Run} {total : Nat} {failures : List FileFailure} (hphase : v.phase = .moving r)
      (hfiles : v.files = some total) (hsettled : v.settled = counted)
      (hleft : r.left + counted = total) (hrecord : record.IsUnderWay counted total failures)
  | ended {total : Nat} (hfinal : record.status.IsFinal)
      (hcompleted : record.completed = .int counted) (htotal : record.total = .int total)
      (hle : counted ≤ total) (hwhole : record.status = .completed → v.files = some v.settled)
      (hover : record.status ≠ .stopped → v.phase = .ended)

/-- The conversions of a project have been kept apart. -/
structure Conversions.IsApart (s : Conversions σ) (project : String) : Prop where
  /-- Only the last conversion may be under way. -/
  earlier : ∀ (i : Nat) (v : Venture), s.ventures[i]? = some v → i + 1 < s.ventures.length → ¬ v.IsUnderWay
  runs : ∀ (i : Nat) (v : Venture), s.ventures[i]? = some v → ∀ r : Run, v.phase = .moving r → r.project = project
  own : ∀ i ∈ s.counted, i + 1 = s.ventures.length
  obeyed : ∀ (i : Nat) (v : Venture), s.ventures[i]? = some v → v.late = 0
  /-- Without a conversion there is no record. -/
  blank : s.ventures = [] →
    Table.find? s.workshop.ledger project = none ∧ s.counted = []
  follows : ∀ (i : Nat) (v : Venture), s.ventures[i]? = some v → i + 1 = s.ventures.length →
    Follows (s.record project) s.counted.length v
  stopped : ∀ (i : Nat) (v : Venture), s.ventures[i]? = some v → i + 1 = s.ventures.length → v.wasStopped = true →
    (s.record project).status = .stopped

namespace Follows

variable {record : Record} {counted : Nat} {v : Venture}

theorem counts (h : Follows record counted v) : record.completed = .int counted ∧
    ∃ total : Nat, record.total = .int total ∧ counted ≤ total := by
  cases h with
  | begun hphase hsettled hcounted hrecord =>
      subst hcounted
      exact ⟨hrecord.completed, _, hrecord.total, Nat.zero_le _⟩
  | moving hphase hfiles hsettled hleft hrecord =>
      exact ⟨hrecord.completed, _, hrecord.total, by omega⟩
  | ended hfinal hcompleted htotal hle hwhole hover => exact ⟨hcompleted, _, htotal, hle⟩

theorem whole (h : Follows record counted v) (hstatus : record.status = .completed) :
    v.files = some v.settled := by
  cases h with
  | begun hphase hsettled hcounted hrecord =>
      rw [hrecord.status] at hstatus
      cases hstatus
  | moving hphase hfiles hsettled hleft hrecord =>
      rw [hrecord.status] at hstatus
      cases hstatus
  | ended hfinal hcompleted htotal hle hwhole hover => exact hwhole hstatus

/-- A record that has ended before its conversion was stopped. -/
theorem isStopped_of_ended (hover : record.status ≠ .stopped → v.phase = .ended)
    (hphase : v.phase ≠ .ended) : record.status = .stopped := by
  by_cases h : record.status = .stopped
  · exact h
  · exact absurd (hover h) hphase

/-- A record that was stopped keeps its counts, however far its conversion comes. -/
theorem of_stopped (h : Follows record counted v) (hstatus : record.status = .stopped)
    (v' : Venture) : Follows record counted v' := by
  obtain ⟨hcompleted, total, htotal, hle⟩ := h.counts
  refine .ended (.inr (.inr hstatus)) hcompleted htotal hle ?_ fun hne => absurd hstatus hne
  intro hcompletion
  rw [hstatus] at hcompletion
  cases hcompletion

end Follows

namespace Conversions

variable {s : Conversions σ} {project : String}

/-- What was kept apart is isolated. -/
theorem IsApart.isIsolated (h : s.IsApart project) : s.IsIsolated project := by
  have hobeyed : ∀ v ∈ s.ventures, v.late = 0 := by
    intro v hv
    obtain ⟨i, hi⟩ := List.mem_iff_getElem?.mp hv
    exact h.obeyed i v hi
  rcases List.eq_nil_or_concat s.ventures with hnil | ⟨front, v, hfront⟩
  · obtain ⟨hfind, hcounted⟩ := h.blank hnil
    have hrecord : s.record project = {} := by
      unfold Conversions.record Workshop.record Ledger.get
      rw [hfind]
      rfl
    refine ⟨h.own, ⟨0, ?_, ?_, ?_⟩, ?_, hobeyed⟩
    · rw [hrecord, hcounted]
      rfl
    · rw [hrecord]
      rfl
    · rw [hcounted]
      exact Nat.le_refl 0
    · intro hstatus
      rw [hrecord] at hstatus
      cases hstatus
  · have hlast : s.ventures[front.length]? = some v := by rw [hfront]; simp
    have hlength : front.length + 1 = s.ventures.length := by rw [hfront]; simp
    have hfollows := h.follows _ v hlast hlength
    obtain ⟨hcompleted, total, htotal, hle⟩ := hfollows.counts
    refine ⟨h.own, ⟨total, hcompleted, htotal, hle⟩, ?_, hobeyed⟩
    intro hstatus
    exact ⟨v, by rw [hfront]; simp, hfollows.whole hstatus⟩

theorem advance_counted_of_eq {i : Nat} {v : Venture} {w : Workshop σ}
    (h : (w.record project).completed = (s.record project).completed) :
    (s.advance project i v w).counted = s.counted := if_pos h

theorem advance_counted_of_ne {i : Nat} {v : Venture} {w : Workshop σ}
    (h : (w.record project).completed ≠ (s.record project).completed) :
    (s.advance project i v w).counted = s.counted ++ [i] := if_neg h

/-- An act of the last conversion keeps the conversions apart, if the record follows it. -/
theorem IsApart.advance (h : s.IsApart project) {i : Nat} {v v' : Venture} {w : Workshop σ}
    (hv : s.ventures[i]? = some v) (hlast : i + 1 = s.ventures.length)
    (hruns : ∀ r, v'.phase = .moving r → r.project = project) (hlate : v'.late = 0)
    (hfollows : Follows (w.record project) (s.advance project i v' w).counted.length v')
    (hstopped : v'.wasStopped = true → (w.record project).status = .stopped) :
    (s.advance project i v' w).IsApart project := by
  have hlength : (s.advance project i v' w).ventures.length = s.ventures.length :=
    List.length_set
  have hget : ∀ j u, (s.advance project i v' w).ventures[j]? = some u →
      (j = i ∧ u = v') ∨ (j ≠ i ∧ s.ventures[j]? = some u) := by
    intro j u hu
    have hset : (s.ventures.set i v')[j]? = some u := hu
    rw [List.getElem?_set] at hset
    by_cases hij : i = j
    · rw [if_pos hij, if_pos (by omega)] at hset
      exact .inl ⟨hij.symm, (Option.some.inj hset).symm⟩
    · rw [if_neg hij] at hset
      exact .inr ⟨Ne.symm hij, hset⟩
  refine ⟨?_, ?_, ?_, ?_, ?_, ?_, ?_⟩
  · intro j u hu hj
    rcases hget j u hu with ⟨rfl, rfl⟩ | ⟨-, hold⟩
    · omega
    · exact h.earlier j u hold (by omega)
  · intro j u hu
    rcases hget j u hu with ⟨rfl, rfl⟩ | ⟨-, hold⟩
    · exact hruns
    · exact h.runs j u hold
  · intro j hj
    rw [hlength]
    by_cases heq : (w.record project).completed = (s.record project).completed
    · rw [advance_counted_of_eq heq] at hj
      exact h.own j hj
    · rw [advance_counted_of_ne heq] at hj
      rcases List.mem_append.mp hj with hj | hj
      · exact h.own j hj
      · rw [List.mem_singleton.mp hj]
        exact hlast
  · intro j u hu
    rcases hget j u hu with ⟨rfl, rfl⟩ | ⟨-, hold⟩
    · exact hlate
    · exact h.obeyed j u hold
  · intro hnil
    rw [hnil, List.length_nil] at hlength
    omega
  · intro j u hu hj
    rcases hget j u hu with ⟨rfl, rfl⟩ | ⟨hne, -⟩
    · exact hfollows
    · omega
  · intro j u hu hj
    rcases hget j u hu with ⟨rfl, rfl⟩ | ⟨hne, -⟩
    · exact hstopped
    · omega

/-- A conversion that is under way is the last one. -/
theorem IsApart.last (h : s.IsApart project) {i : Nat} {v : Venture}
    (hv : s.ventures[i]? = some v) (hunder : v.IsUnderWay) : i + 1 = s.ventures.length := by
  have hlt := (List.getElem?_eq_some_iff.mp hv).1
  by_cases hlast : i + 1 < s.ventures.length
  · exact absurd hunder (h.earlier i v hv hlast)
  · omega

/-- While the record is in progress, the last conversion has not been stopped. -/
theorem IsApart.not_wasStopped (h : s.IsApart project) {i : Nat} {v : Venture}
    (hv : s.ventures[i]? = some v) (hlast : i + 1 = s.ventures.length)
    (hstatus : (s.record project).status = .inProgress) : v.wasStopped ≠ true := by
  intro hstop
  have hstopped := h.stopped i v hv hlast hstop
  rw [hstatus] at hstopped
  cases hstopped

/-- An act of the last conversion that leaves the record alone keeps the conversions apart, if the
record was stopped. -/
theorem IsApart.advance_of_stopped (h : s.IsApart project) {i : Nat} {v v' : Venture}
    {w : Workshop σ} (hv : s.ventures[i]? = some v) (hlast : i + 1 = s.ventures.length)
    (hruns : ∀ r, v'.phase = .moving r → r.project = project) (hlate : v'.late = 0)
    (hkept : w.record project = s.record project)
    (hstatus : (s.record project).status = .stopped) :
    (s.advance project i v' w).IsApart project := by
  refine h.advance hv hlast hruns hlate ?_ fun _ => by rw [hkept, hstatus]
  rw [advance_counted_of_eq (by rw [hkept]), hkept]
  exact (h.follows i v hv hlast).of_stopped hstatus v'

/-! ### What the acts do

One lemma for each kind of act.  The cases are those of `Follows`, and most of them are ruled out by
how far the conversion has come. -/

variable {c : Converter σ}

theorem IsApart.prepared (h : s.IsApart project) {i : Nat} {v : Venture} {r : Run} {w : Workshop σ}
    (hv : s.ventures[i]? = some v) (hphase : v.phase = .begun)
    (hp : c.prepare project s.workshop = (.ok r, w)) :
    (s.advance project i { v with phase := .moving r, files := some r.left } w).IsApart project := by
  have hlast := h.last hv (by unfold Venture.IsUnderWay; rw [hphase]; trivial)
  have hruns : ∀ r', Phase.moving r = .moving r' → r'.project = project := by
    intro r' hr'
    cases hr'
    exact Converter.prepare_project hp
  cases h.follows i v hv hlast with
  | begun _ hsettled hcounted hrecord =>
      obtain ⟨files, -, -, -, htasks, hqueue, -, -, -, -, hfresh⟩ := Converter.prepare_ok hrecord hp
      have hleft : r.left = files.length := by
        unfold Run.left
        rw [htasks, hqueue, flatten_chunksOf c.settings.chunkSize_pos]
        exact Nat.zero_add _
      have heq : (w.record project).completed = (s.record project).completed := by
        rw [hfresh.completed]
        exact hrecord.completed.symm
      refine h.advance hv hlast hruns (h.obeyed i v hv) ?_ ?_
      · rw [advance_counted_of_eq heq, hcounted]
        rw [← hleft] at hfresh
        exact .moving rfl rfl hsettled (Nat.add_zero _) hfresh
      · have hgoing := h.not_wasStopped hv hlast hrecord.status
        exact fun hstop => absurd hstop hgoing
  | moving hmoving => rw [hphase] at hmoving; cases hmoving
  | ended hfinal hcompleted htotal hle hwhole hover =>
      have hstatus : (s.record project).status = .stopped :=
        Follows.isStopped_of_ended hover (by rw [hphase]; exact Phase.noConfusion)
      have hkept : w.record project = s.record project := by
        have := Converter.prepare_record_of_isFinal (c := c) hfinal
        rwa [hp] at this
      exact h.advance_of_stopped hv hlast hruns (h.obeyed i v hv) hkept hstatus

theorem IsApart.failed (h : s.IsApart project) {i : Nat} {v : Venture} {incident : Incident}
    {w : Workshop σ} (message : String) (hv : s.ventures[i]? = some v) (hphase : v.phase = .begun)
    (hp : c.prepare project s.workshop = (.error incident, w)) :
    (s.advance project i { v with phase := .ended } (w.fail project message)).IsApart project := by
  have hlast := h.last hv (by unfold Venture.IsUnderWay; rw [hphase]; trivial)
  have hruns : ∀ r', Phase.ended = .moving r' → r'.project = project := fun _ hr' => by cases hr'
  cases h.follows i v hv hlast with
  | begun _ hsettled hcounted hrecord =>
      have hfresh := Converter.prepare_error hrecord hp
      have hfailed := Workshop.fail_record hfresh.status message
      have heq : ((w.fail project message).record project).completed =
          (s.record project).completed := by
        rw [hfailed]
        exact hfresh.completed.trans hrecord.completed.symm
      refine h.advance hv hlast hruns (h.obeyed i v hv) ?_ ?_
      · rw [advance_counted_of_eq heq, hcounted, hfailed]
        exact .ended (.inr (.inl rfl)) hfresh.completed hfresh.total (Nat.zero_le _)
          (fun hne => by cases hne) fun _ => rfl
      · have hgoing := h.not_wasStopped hv hlast hrecord.status
        exact fun hstop => absurd hstop hgoing
  | moving hmoving => rw [hphase] at hmoving; cases hmoving
  | ended hfinal hcompleted htotal hle hwhole hover =>
      have hstatus : (s.record project).status = .stopped :=
        Follows.isStopped_of_ended hover (by rw [hphase]; exact Phase.noConfusion)
      have hprepared : w.record project = s.record project := by
        have := Converter.prepare_record_of_isFinal (c := c) hfinal
        rwa [hp] at this
      have hkept : (w.fail project message).record project = s.record project := by
        rw [Workshop.fail_record_of_isFinal message (by rw [hprepared]; exact hfinal), hprepared]
      exact h.advance_of_stopped hv hlast hruns (h.obeyed i v hv) hkept hstatus

theorem IsApart.move (h : s.IsApart project) {i : Nat} {v : Venture} {r r' : Run} {m : Move}
    {trial : Option Trial} {w : Workshop σ} (hv : s.ventures[i]? = some v)
    (hphase : v.phase = .moving r) (hm : Moved c m trial r s.workshop r' w) :
    (s.advance project i (v.after m r') w).IsApart project := by
  have hlast := h.last hv (hm.venture_isUnderWay hphase)
  obtain rfl : r.project = project := h.runs i v hv r hphase
  have hruns : ∀ r₁, (v.after m r').phase = .moving r₁ → r₁.project = r.project := by
    intro r₁ hr₁
    cases hr₁
    exact hm.project
  cases h.follows i v hv hlast with
  | begun hbegun => rw [hphase] at hbegun; cases hbegun
  | moving hmoving hfiles hsettled hleft hrecord =>
      rename_i r₁ total failures
      rw [hphase] at hmoving
      cases hmoving
      have hrunning : (s.record r.project).status ≠ .stopped := by
        rw [hrecord.status]
        exact Status.noConfusion
      have hnotStopped := h.not_wasStopped hv hlast hrecord.status
      obtain ⟨failures, hmore⟩ := hm.isUnderWay hrecord
      have hfewer := hm.left hrunning
      refine h.advance hv hlast hruns ?_ ?_ fun hstop => absurd hstop hnotStopped
      · show (if _ ∧ v.wasStopped = true ∧ _ then _ else v.late) = 0
        rw [if_neg (fun hand => hnotStopped hand.2.1)]
        exact h.obeyed i v hv
      · have hcounted : (s.advance r.project i (v.after m r') w).counted.length =
            s.counted.length + m.settlements := by
          by_cases hzero : m.settlements = 0
          · rw [advance_counted_of_eq, hzero, Nat.add_zero]
            rw [hmore.completed, hzero]
            exact hrecord.completed.symm
          · have hone : m.settlements = 1 := by
              rcases hm.ledger_cases with ⟨hcase, -⟩ | ⟨_, _, hcase, -⟩
              · exact absurd hcase hzero
              · exact hcase
            rw [advance_counted_of_ne, List.length_append, hone]
            · rfl
            · rw [hmore.completed, hrecord.completed, hone]
              intro heq
              injection heq with heq
              injection heq with heq
              omega
        rw [hcounted]
        exact .moving rfl hfiles (congrArg (· + m.settlements) hsettled) (by omega) hmore
  | ended hfinal hcompleted htotal hle hwhole hover =>
      have hstatus : (s.record r.project).status = .stopped :=
        Follows.isStopped_of_ended hover (by rw [hphase]; exact Phase.noConfusion)
      refine h.advance_of_stopped hv hlast hruns ?_ (hm.record_of_isFinal hfinal) hstatus
      show (if m = .dispatch ∧ v.wasStopped = true ∧ r'.tasks ≠ [] then _ else v.late) = 0
      rw [if_neg]
      · exact h.obeyed i v hv
      · rintro ⟨rfl, -, hne⟩
        exact hne (hm.tasks_of_isStopped hstatus)

theorem IsApart.finish (h : s.IsApart project) {i : Nat} {v : Venture} {r : Run}
    (hv : s.ventures[i]? = some v) (hphase : v.phase = .moving r)
    (hmoves : Converter.nextMove r = none) (hkept : r.tasks.findSome? Task.abandonment? = none) :
    (s.advance project i { v with phase := .ended }
      (Converter.conclude project s.workshop).2).IsApart project := by
  have hlast := h.last hv (by unfold Venture.IsUnderWay; rw [hphase]; exact .inl hkept)
  have hruns : ∀ r', Phase.ended = .moving r' → r'.project = project := fun _ hr' => by cases hr'
  cases h.follows i v hv hlast with
  | begun hbegun => rw [hphase] at hbegun; cases hbegun
  | moving hmoving hfiles hsettled hleft hrecord =>
      rename_i r₁ total failures
      rw [hphase] at hmoving
      cases hmoving
      have hstatus : (s.record project).status = .inProgress := hrecord.status
      have hconclude : (Converter.conclude project s.workshop).2 =
          (s.workshop.complete project).2 :=
        congrArg Prod.snd (Converter.conclude_of_inProgress hstatus)
      have hcomplete := Workshop.complete_of_isUnderWay hrecord
      have hall : s.counted.length = total := by
        rw [Run.left_of_nextMove hmoves hkept] at hleft
        omega
      rw [hconclude]
      refine h.advance hv hlast hruns (h.obeyed i v hv) ?_ ?_
      · have hcompleted : ((s.workshop.complete project).2.record project).completed =
            .int s.counted.length := by
          rw [hcomplete]
          exact hrecord.completed
        rw [advance_counted_of_eq (hcompleted.trans hrecord.completed.symm)]
        refine .ended ?_ hcompleted ?_ (Nat.le_of_eq hall) ?_ fun _ => rfl
        · rw [hcomplete]
          exact .inl rfl
        · rw [hcomplete]
          exact hrecord.total
        · intro _
          show v.files = some v.settled
          rw [hfiles, hsettled, hall]
      · have hgoing := h.not_wasStopped hv hlast hstatus
        exact fun hstop => absurd hstop hgoing
  | ended hfinal hcompleted htotal hle hwhole hover =>
      have hstatus : (s.record project).status = .stopped :=
        Follows.isStopped_of_ended hover (by rw [hphase]; exact Phase.noConfusion)
      have hconclude : (Converter.conclude project s.workshop).2 = s.workshop := by
        have hstopped : s.workshop.ledger.isStopped project = true := decide_eq_true hstatus
        unfold Converter.conclude
        rw [hstopped]
        rfl
      rw [hconclude]
      exact h.advance_of_stopped hv hlast hruns (h.obeyed i v hv) rfl hstatus

theorem IsApart.start {s' : Conversions σ} (h : s.IsApart project) (hstart : Began project s s')
    (hover : ∀ v ∈ s.ventures, ¬ v.IsUnderWay) : s'.IsApart project := by
  cases hstart with
  | accepted hbegin =>
  rename_i count w
  rcases Converter.beginRecord_cases project count s.workshop with
    ⟨incident, hrefused⟩ | ⟨r, haccepted, hfresh⟩
  · rw [hrefused] at hbegin
    cases hbegin
  · rw [haccepted] at hbegin
    cases hbegin
    have hget : ∀ (j : Nat) (u : Venture), (s.ventures ++ [({} : Venture)])[j]? = some u →
        (j = s.ventures.length ∧ u = {}) ∨ s.ventures[j]? = some u := by
      intro j u hu
      by_cases hj : j < s.ventures.length
      · rw [List.getElem?_append_left hj] at hu
        exact .inr hu
      · rw [List.getElem?_append_right (Nat.not_lt.mp hj)] at hu
        obtain ⟨hlt, heq⟩ := List.getElem?_eq_some_iff.mp hu
        rw [List.length_singleton] at hlt
        refine .inl ⟨by omega, ?_⟩
        rw [List.getElem_singleton] at heq
        exact heq.symm
    have hlength : (s.ventures ++ [({} : Venture)]).length = s.ventures.length + 1 := by simp
    have hrecord : (Workshop.record { s.workshop with
        ledger := Table.set project r s.workshop.ledger } project).IsUnderWay 0
          (count.getD 0) [] := by
      unfold Workshop.record
      rw [Ledger.get_set, if_pos rfl]
      exact hfresh
    refine ⟨?_, ?_, fun i hi => (List.not_mem_nil hi).elim, ?_, ?_, ?_, ?_⟩
    · intro j u hu hj
      rcases hget j u hu with ⟨rfl, rfl⟩ | hold
      · dsimp only at hj
        omega
      · exact hover u (List.mem_of_getElem? hold)
    · intro j u hu
      rcases hget j u hu with ⟨rfl, rfl⟩ | hold
      · intro r' hr'
        cases hr'
      · exact h.runs j u hold
    · intro j u hu
      rcases hget j u hu with ⟨rfl, rfl⟩ | hold
      · rfl
      · exact h.obeyed j u hold
    · intro hnil
      rw [show s.ventures ++ [({} : Venture)] = [] from hnil] at hlength
      cases hlength
    · intro j u hu hj
      rcases hget j u hu with ⟨rfl, rfl⟩ | hold
      · exact .begun rfl rfl rfl hrecord
      · have := (List.getElem?_eq_some_iff.mp hold).1
        dsimp only at hj
        omega
    · intro j u hu hj
      rcases hget j u hu with ⟨rfl, rfl⟩ | hold
      · exact Bool.noConfusion
      · have := (List.getElem?_eq_some_iff.mp hold).1
        dsimp only at hj
        omega

/-- Only the record of the project matters. -/
theorem IsApart.congr (h : s.IsApart project) {w : Workshop σ}
    (hrecord : w.record project = s.record project)
    (hblank : s.ventures = [] → Table.find? w.ledger project = none) :
    Conversions.IsApart { s with workshop := w } project := by
  refine ⟨h.earlier, h.runs, h.own, h.obeyed, fun hnil => ⟨hblank hnil, (h.blank hnil).2⟩, ?_, ?_⟩
  · intro i v hv hlast
    show Follows (w.record project) _ v
    rw [hrecord]
    exact h.follows i v hv hlast
  · intro i v hv hlast
    show _ → (w.record project).status = _
    rw [hrecord]
    exact h.stopped i v hv hlast

theorem IsApart.elsewhere (h : s.IsApart project) {w : Workshop σ}
    (hw : Table.find? w.ledger project = Table.find? s.workshop.ledger project) :
    Conversions.IsApart { s with workshop := w } project := by
  refine h.congr ?_ fun hnil => hw.trans (h.blank hnil).1
  show (Table.find? w.ledger project).getD {} = (Table.find? s.workshop.ledger project).getD {}
  rw [hw]

/-- A stop that leaves the record alone changes nothing. -/
theorem stop_of_record_eq (h : (s.workshop.stop project).2.record project = s.record project) :
    s.stop project = { s with workshop := (s.workshop.stop project).2 } := by
  have hnot : ¬ ((s.record project).status ≠ .stopped ∧
      ((s.workshop.stop project).2.record project).status = .stopped) := by
    rintro ⟨hne, heq⟩
    rw [h] at heq
    exact hne heq
  unfold stop
  dsimp only
  rw [if_neg hnot]

/-- A stop that ends the record is noted of the last conversion, and keeps the counts. -/
theorem IsApart.stop_of_inProgress (h : s.IsApart project)
    (hstatus : (s.record project).status = .inProgress)
    (heq : (s.workshop.stop project).2.record project = { s.record project with
      status := .stopped, step := .text "stopped", error := .text Ledger.stopMessage })
    (hlast : s.ventures.length - 1 + 1 = s.ventures.length) :
    (s.stop project).IsApart project := by
  have hventures : (s.stop project).ventures =
      s.ventures.modify (s.ventures.length - 1) fun v => { v with wasStopped := true } := by
    unfold stop
    refine if_pos ⟨?_, ?_⟩
    · rw [hstatus]
      exact Status.noConfusion
    · rw [heq]
  have hlength : (s.stop project).ventures.length = s.ventures.length := by
    rw [hventures, List.length_modify]
  have hget : ∀ (j : Nat) (u : Venture), (s.stop project).ventures[j]? = some u →
      ∃ v, s.ventures[j]? = some v ∧ (u = v ∨ u = { v with wasStopped := true }) := by
    intro j u hu
    rw [hventures, List.getElem?_modify] at hu
    obtain ⟨v, hv, rfl⟩ := Option.map_eq_some_iff.mp hu
    refine ⟨v, hv, ?_⟩
    by_cases hj : s.ventures.length - 1 = j
    · exact .inr (if_pos hj)
    · exact .inl (if_neg hj)
  refine ⟨?_, ?_, ?_, ?_, ?_, ?_, ?_⟩
  · intro j u hu hj
    rw [hlength] at hj
    obtain ⟨v, hv, rfl | rfl⟩ := hget j u hu
    · exact h.earlier j u hv hj
    · exact h.earlier j v hv hj
  · intro j u hu
    obtain ⟨v, hv, rfl | rfl⟩ := hget j u hu
    · exact h.runs j u hv
    · exact h.runs j v hv
  · rw [hlength]
    exact h.own
  · intro j u hu
    obtain ⟨v, hv, rfl | rfl⟩ := hget j u hu
    · exact h.obeyed j u hv
    · exact h.obeyed j v hv
  · intro hnil
    rw [hnil, List.length_nil] at hlength
    omega
  · intro j u hu hj
    rw [hlength] at hj
    obtain ⟨v, hv, -⟩ := hget j u hu
    obtain ⟨hcompleted, total, htotal, hle⟩ := (h.follows j v hv hj).counts
    show Follows ((s.workshop.stop project).2.record project) s.counted.length u
    rw [heq]
    exact .ended (.inr (.inr rfl)) hcompleted htotal hle (fun hne => by cases hne)
      fun hne => absurd rfl hne
  · intro j u hu hj _
    show ((s.workshop.stop project).2.record project).status = _
    rw [heq]

theorem IsApart.of_stop (h : s.IsApart project) : (s.stop project).IsApart project := by
  by_cases hnil : s.ventures = []
  · have hstop : (s.workshop.stop project).2 = s.workshop := by
      unfold Workshop.stop
      rw [if_neg]
      unfold Table.has
      rw [(h.blank hnil).1]
      exact Bool.false_ne_true
    rw [stop_of_record_eq (by rw [hstop]; rfl), hstop]
    exact h
  · have hpos := List.length_pos_iff.mpr hnil
    obtain ⟨v, hv⟩ : ∃ v, s.ventures[s.ventures.length - 1]? = some v :=
      ⟨_, List.getElem?_eq_getElem (by omega)⟩
    have hlast : s.ventures.length - 1 + 1 = s.ventures.length := by omega
    have hfollows := h.follows _ v hv hlast
    have hsame : (s.workshop.stop project).2.record project = s.record project →
        (s.stop project).IsApart project := by
      intro heq
      rw [stop_of_record_eq heq]
      exact h.congr heq fun hempty => absurd hempty hnil
    by_cases hstatus : (s.record project).status = .inProgress
    · rcases Workshop.stop_record hstatus with heq | heq
      · exact hsame heq
      · exact h.stop_of_inProgress hstatus heq hlast
    · refine hsame (congrArg (Ledger.get · project) (Workshop.stop_of_isFinal ?_))
      cases hfollows with
      | begun _ _ _ hrecord => exact absurd hrecord.status hstatus
      | moving _ _ _ _ hrecord => exact absurd hrecord.status hstatus
      | ended hfinal => exact hfinal

/-- **One act keeps the conversions apart.** -/
theorem IsApart.of_acted {s' : Conversions σ} (h : s.IsApart project)
    (hact : Acted c project true s s') : s'.IsApart project := by
  cases hact with
  | start hstart hapart => exact h.start hstart (hapart rfl)
  | refused hbegin =>
      rename_i count incident w
      rcases Converter.beginRecord_cases project count s.workshop with
        ⟨incident, hrefused⟩ | ⟨r, haccepted, -⟩
      · rw [hrefused] at hbegin
        cases hbegin
        exact h
      · rw [haccepted] at hbegin
        cases hbegin
  | prepared hv hphase hp => exact h.prepared hv hphase hp
  | failed hv hphase hp => exact h.failed _ hv hphase hp
  | move hv hphase hm => exact h.move hv hphase hm
  | finish hv hphase hmoves hkept => exact h.finish hv hphase hmoves hkept
  | stop => exact h.of_stop
  | elsewhere hw => exact h.elsewhere hw

/-- **So do any acts after each other.** -/
theorem IsApart.of_reached {s' : Conversions σ} (h : s.IsApart project)
    (hreached : Reached c project true s s') : s'.IsApart project := by
  induction hreached with
  | here => exact h
  | next _ hact ih => exact ih.of_acted hact

/-- A workshop in which the project has no record. -/
theorem isApart_of_find?_eq_none {w : Workshop σ} (hw : Table.find? w.ledger project = none) :
    Conversions.IsApart { workshop := w } project := by
  have hnone : ∀ (i : Nat) (v : Venture), ([] : List Venture)[i]? = some v → False := by
    intro i v hv
    cases hv
  exact ⟨fun i v hv => (hnone i v hv).elim, fun i v hv => (hnone i v hv).elim,
    fun i hi => (List.not_mem_nil hi).elim, fun i v hv => (hnone i v hv).elim,
    fun _ => ⟨hw, rfl⟩, fun i v hv => (hnone i v hv).elim, fun i v hv => (hnone i v hv).elim⟩

end Conversions

end PhpMigration
