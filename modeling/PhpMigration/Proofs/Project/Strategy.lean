/-
What conversions with a strategy write.

An attempt that fails has written nothing, and one that succeeds has written its text to the place
that its path leads to, and nothing else (`Played.tree_cases`).  So a file that is there when the
moves begin holds, after any of them, what was written to its place last, by whichever path, or what
it held before (`Plays.at?_file`).  That is so for every tree: a path that leads to a place leads
there for good, so it does not matter in which of the trees on the way it is followed.
-/
import PhpMigration.Proofs.Project.Account

namespace PhpMigration

variable {σ : Type}

/-- Moves of a conversion with a strategy, one after another, with the attempts that are made. -/
inductive Plays (c : Converter σ) (strategy : Strategy) (r : Run) (w : Workshop σ) :
    List Trial → Run → Workshop σ → Prop
  | start : Plays c strategy r w [] r w
  | next {trials : List Trial} {m : Move} {trial : Option Trial} {r₁ r₂ : Run}
      {w₁ w₂ : Workshop σ} (h : Plays c strategy r w trials r₁ w₁)
      (hmove : Played c strategy m trial r₁ w₁ r₂ w₂) :
      Plays c strategy r w (trials ++ trial.toList) r₂ w₂

section

variable {c : Converter σ} {strategy : Strategy} {trials more : List Trial} {r r₁ r' : Run}
  {w w₁ w' : Workshop σ}

theorem Plays.course (h : Plays c strategy r w trials r' w') :
    ∃ moves, Course c r w moves trials r' w' := by
  induction h with
  | start => exact ⟨[], .start⟩
  | next h hmove ih =>
      obtain ⟨moves, hcourse⟩ := ih
      exact ⟨_, hcourse.next hmove.moved⟩

theorem Plays.trans (h : Plays c strategy r w trials r₁ w₁)
    (h' : Plays c strategy r₁ w₁ more r' w') : Plays c strategy r w (trials ++ more) r' w' := by
  induction h' with
  | start => simpa using h
  | next _ hmove ih =>
      rw [← List.append_assoc]
      exact ih.next hmove

theorem Plays.project (h : Plays c strategy r w trials r' w') : r'.project = r.project := by
  induction h with
  | start => rfl
  | next h hmove ih => exact hmove.moved.project.trans ih

theorem Plays.output (h : Plays c strategy r w trials r' w') : r'.output = r.output := by
  induction h with
  | start => rfl
  | next h hmove ih => exact hmove.moved.output.trans ih

/-- The moves of a converter are moves with the strategy that may have any outcome. -/
theorem Converter.plays_of_steps (settings : Settings) (parser : SourceParser)
    (service : Service σ) {moves : List Move}
    (h : (ofService settings parser service).steps moves r w = some (r', w')) :
    ∃ trials, Plays (ofService settings parser service) .free r w trials r' w' := by
  induction moves generalizing r w with
  | nil =>
      cases h
      exact ⟨[], .start⟩
  | cons m rest ih =>
      obtain ⟨⟨r₁, w₁⟩, hstep, hrest⟩ := Option.bind_eq_some_iff.mp h
      have hplayed : ∃ trial, Played (ofService settings parser service) .free m trial r w r₁ w₁ :=
        played_of_step settings parser service hstep fun _ _ _ _ _ => trivial
      obtain ⟨trial, hplayed⟩ := hplayed
      obtain ⟨trials, hplays⟩ := ih hrest
      exact ⟨_, (Plays.start.next hplayed).trans hplays⟩

end

/-! ### One delivery -/

/-- A file that cannot be written is not written. -/
theorem Skeleton.built_of_writeFile_error {path : List String} {content : String}
    {t t' : FileTree} {fault : StorageFault}
    (h : writeFile path content t = (.error fault, t')) : t.Built (fun _ => False) t' := by
  rcases writeFile_cases path content t with ⟨fault', heq⟩ | ⟨t₁, t₂, -, -, heq⟩
  · rw [heq] at h
    cases h
    exact FileTree.built_makeFolders t path.dropLast
  · rw [heq] at h
    cases h

namespace Converter

variable {r : Run} {m m' : Mapping} {code : String} {w w' : Workshop σ}

theorem built_of_deliver_error {cause : Incident} (h : deliver r m code w = (.error cause, w')) :
    w.tree.Built (fun _ => False) w'.tree := by
  unfold deliver at h
  dsimp only at h
  split at h
  · cases h
  · rename_i fault tree hwrite
    cases h
    exact Skeleton.built_of_writeFile_error hwrite

/-- What is delivered is at the place that its path leads to, and nothing else is written. -/
theorem built_of_deliver_ok (h : deliver r m code w = (.ok m', w')) :
    ∃ place, w'.tree.LeadsTo (r.output ++ Path.parts m'.target) place
        (.file (Text.Utf8.encode code)) ∧ w.tree.Built (· = place) w'.tree := by
  have htree := deliver_tree r m code w
  obtain ⟨rfl, hwrite⟩ := deliver_ok (congrArg Prod.fst h)
  obtain ⟨hbuilt, hleads⟩ :=
    Skeleton.built_writeFile (r.output ++ Path.parts (given r m w)) code w.tree
  obtain ⟨place, hleads⟩ := hleads hwrite
  rw [h] at htree
  rw [← htree] at hbuilt hleads
  exact ⟨place, hleads, hbuilt.mono fun other hother => (hother.unique hleads).1⟩

end Converter

/-- A move writes nothing, or it is an attempt that succeeds, which writes its text to the place
that its path leads to and nothing else. -/
theorem Played.tree_cases {c : Converter σ} {strategy : Strategy} {move : Move}
    {trial : Option Trial} {r r' : Run} {w w' : Workshop σ}
    (h : Played c strategy move trial r w r' w') :
    ((∀ t ∈ trial, ∃ cause, t.result = .error cause) ∧ w.tree.Built (fun _ => False) w'.tree) ∨
      ∃ file m code place, trial = some ⟨file, .ok (m, code)⟩ ∧
        w'.tree.LeadsTo (r.output ++ Path.parts m.target) place (.file (Text.Utf8.encode code)) ∧
        w.tree.Built (· = place) w'.tree := by
  have hfailed : ∀ {file : List String} {cause : Incident},
      ∀ t ∈ (some ⟨file, .error cause⟩ : Option Trial), ∃ cause, t.result = .error cause := by
    rintro file cause t ht
    cases ht
    exact ⟨cause, rfl⟩
  cases h with
  | dispatch h => exact .inl ⟨fun _ ht => (by cases ht), .same⟩
  | converted s ht hs h =>
      rcases Converter.attemptOf_cases h with ⟨cause, hcause, -⟩ | ⟨_, _, delivered, -, -, hd, heq⟩
      · cases hcause
      · cases delivered with
        | error cause => cases heq
        | ok m =>
            cases heq
            obtain ⟨place, hleads, hbuilt⟩ := Converter.built_of_deliver_ok hd
            exact .inr ⟨_, _, _, place, rfl, hleads, hbuilt⟩
  | missed s ht hs h =>
      refine .inl ⟨hfailed, ?_⟩
      rw [Converter.afterFailure_tree]
      rcases Converter.attemptOf_cases h with ⟨_, -, rfl⟩ | ⟨_, _, delivered, -, -, hd, heq⟩
      · exact .same
      · cases delivered with
        | ok m => cases heq
        | error cause =>
            have hbuilt := Converter.built_of_deliver_error hd
            exact hbuilt
  | settle h =>
      refine .inl ⟨fun _ ht => (by cases ht), ?_⟩
      rw [Converter.settleFile_tree h]
      exact .same

/-- Whatever is written, the files that were there only grow. -/
theorem Plays.built {c : Converter σ} {strategy : Strategy} {trials : List Trial} {r r' : Run}
    {w w' : Workshop σ} (h : Plays c strategy r w trials r' w') :
    w.tree.Built (fun _ => True) w'.tree := by
  induction h with
  | start => exact .same
  | next h hmove ih =>
      rcases hmove.tree_cases with ⟨-, hbuilt⟩ | ⟨_, _, _, _, -, -, hbuilt⟩
      · exact ih.trans (hbuilt.mono fun _ _ => trivial)
      · exact ih.trans (hbuilt.mono fun _ _ => trivial)

/-- An attempt with a text succeeds if its file can be read and its path can be written. -/
theorem Converter.exists_played_of_writeFile (c : Converter σ) {strategy : Strategy} {r : Run}
    {w : Workshop σ} {place n : Nat} {file : List String} {content code : String} {t : FileTree}
    (ht : r.tasks[place]? = some ⟨file, .waiting n⟩) (hs : strategy file n (.ok code))
    (hread : sourceText w.tree (Workshop.folderOf r.project ++ file) = .ok content)
    (hwrite : Skeleton.writeFile
      (r.output ++ Path.parts (given r (.ofFile (Path.join file) content) w)) code w.tree =
        (.ok (), t)) :
    ∃ m w', m.target = given r (.ofFile (Path.join file) content) w ∧
      Played c strategy (.attempt place) (some ⟨file, .ok (m, code)⟩) r w
        (setStanding r place file (.converted m)) w' ∧ w'.tree = t ∧
      w'.claimsOf r.project = ((w.claimsOf r.project).claim (Path.join file)
        (Mapping.ofFile (Path.join file) content).target).2 ∧ w'.ledger = w.ledger := by
  obtain ⟨w', hdeliver, htree, hclaims⟩ := deliver_of_writeFile hwrite
  have hledger := deliver_ledger r (.ofFile (Path.join file) content) code w
  rw [hdeliver] at hledger
  obtain ⟨m, hm⟩ : ∃ m, m = { Mapping.ofFile (Path.join file) content with
    target := given r (.ofFile (Path.join file) content) w } := ⟨_, rfl⟩
  rw [← hm] at hdeliver
  refine ⟨m, w', by rw [hm], .converted w.service ht hs ?_, htree, hclaims, hledger⟩
  show attemptOf r file (.ok code) w = _
  unfold attemptOf
  rw [hread]
  dsimp only
  rw [hdeliver]
  rfl

/-! ### What is written last -/

namespace FileTree

variable {t t' : FileTree} {path place : List String} {e : Entry}

/-- The path leads to something at a place. -/
def endsAt (t : FileTree) (path place : List String) : Bool :=
  match t.spot path with
  | .found there _ _ => decide (there = place)
  | _ => false

theorem LeadsTo.endsAt_eq (h : t.LeadsTo path place e) (other : List String) :
    t.endsAt path other = decide (place = other) := by
  obtain ⟨k, hspot⟩ := h
  unfold endsAt
  rw [hspot]

theorem endsAt_iff : t.endsAt path place = true ↔ ∃ e, t.LeadsTo path place e := by
  constructor
  · intro h
    unfold endsAt at h
    split at h
    · rename_i there e k hspot
      obtain rfl := of_decide_eq_true h
      exact ⟨e, k, hspot⟩
    · cases h
  · rintro ⟨e, hleads⟩
    rw [hleads.endsAt_eq]
    exact decide_eq_true rfl

end FileTree

/-- The text that an attempt has written to a place, if it has. -/
def Trial.writtenTo? (t : FileTree) (output place : List String) (trial : Trial) : Option String :=
  match trial.result with
  | .ok (m, code) => if t.endsAt (output ++ Path.parts m.target) place then some code else none
  | .error _ => none

/-- The text that some attempts have written to a place last. -/
def lastWritten? (t : FileTree) (output place : List String) (trials : List Trial) :
    Option String :=
  (trials.filterMap (Trial.writtenTo? t output place)).getLast?

section

variable {t : FileTree} {output place : List String} {trials more : List Trial} {code : String}

theorem exists_of_lastWritten? (h : lastWritten? t output place trials = some code) :
    ∃ trial ∈ trials, ∃ m e, trial.result = .ok (m, code) ∧
      t.LeadsTo (output ++ Path.parts m.target) place e := by
  obtain ⟨trial, htrial, hwritten⟩ := List.mem_filterMap.mp (List.mem_of_getLast? h)
  refine ⟨trial, htrial, ?_⟩
  unfold Trial.writtenTo? at hwritten
  split at hwritten
  · rename_i m code' hresult
    by_cases hends : t.endsAt (output ++ Path.parts m.target) place = true
    · rw [if_pos hends] at hwritten
      cases hwritten
      obtain ⟨e, hleads⟩ := FileTree.endsAt_iff.mp hends
      exact ⟨m, e, hresult, hleads⟩
    · rw [if_neg hends] at hwritten
      cases hwritten
  · cases hwritten

theorem lastWritten?_append_of_none (h : more.filterMap (Trial.writtenTo? t output place) = []) :
    lastWritten? t output place (trials ++ more) = lastWritten? t output place trials := by
  unfold lastWritten?
  rw [List.filterMap_append, h, List.append_nil]

theorem lastWritten?_snoc {trial : Trial} (h : trial.writtenTo? t output place = some code) :
    lastWritten? t output place (trials ++ [trial]) = some code := by
  unfold lastWritten?
  rw [List.filterMap_append, List.filterMap_cons_some h, List.getLast?_append]
  rfl

end

/-- **A file holds what was written to its place last**, by whichever path, or what it held
before. -/
theorem Plays.at?_file {c : Converter σ} {strategy : Strategy} {trials : List Trial} {r r' : Run}
    {w w' : Workshop σ} (h : Plays c strategy r w trials r' w') {place : List String}
    {content : ByteArray} (hfile : w.tree.top.at? place = some (.file content)) {t : FileTree}
    (hgrown : w'.tree.Grown t) :
    w'.tree.top.at? place = some (.file
      (((lastWritten? t r.output place trials).map Text.Utf8.encode).getD content)) := by
  induction h generalizing t with
  | start => exact hfile
  | next h hmove ih =>
      rename_i trials move trial r₁ r₂ w₁ w₂
      have hold := ih (hmove.moved.grown.trans hgrown)
      rcases hmove.tree_cases with ⟨hfailed, hbuilt⟩ |
        ⟨file, m, code, there, rfl, hleads, hbuilt⟩
      · have hnone : trial.toList.filterMap (Trial.writtenTo? t r.output place) = [] := by
          refine List.filterMap_eq_nil_iff.mpr fun one hone => ?_
          obtain ⟨cause, hcause⟩ := hfailed one (Option.mem_toList.mp hone)
          unfold Trial.writtenTo?
          rw [hcause]
        rw [lastWritten?_append_of_none hnone]
        exact hbuilt.at?_file hold not_false
      · rw [h.output] at hleads
        obtain ⟨e, hlater, -⟩ := hgrown.leadsTo hleads
        by_cases hplace : there = place
        · have hwritten : Trial.writtenTo? t r.output place ⟨file, .ok (m, code)⟩ = some code := by
            unfold Trial.writtenTo?
            dsimp only
            rw [hlater.endsAt_eq, if_pos (decide_eq_true hplace)]
          rw [Option.toList_some, lastWritten?_snoc hwritten, ← hplace]
          exact (FileTree.leadsTo_iff.mp hleads).2.2
        · have hnone : [(⟨file, .ok (m, code)⟩ : Trial)].filterMap
              (Trial.writtenTo? t r.output place) = [] := by
            refine List.filterMap_eq_nil_iff.mpr fun one hone => ?_
            obtain rfl := List.mem_singleton.mp hone
            unfold Trial.writtenTo?
            dsimp only
            rw [hlater.endsAt_eq, if_neg (by simpa using hplace)]
          rw [Option.toList_some, lastWritten?_append_of_none hnone]
          exact hbuilt.at?_file hold (Ne.symm hplace)

end PhpMigration
