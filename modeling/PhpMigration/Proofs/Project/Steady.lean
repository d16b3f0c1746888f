/-
Attempts that do not depend on what was attempted before them.

Where the files of a project are separate, every attempt comes to what it would have come to if it
had been the first of all (`Steady.attempt`).  Its file reads the same, because nothing is written but
converted files, and no source is read from the place of one; it is given the path that it asks for,
because no other file asks for that path; and the path is refused now if it was refused then.

What is relied on is that nothing has been written but converted files, and that every path that is
held is the one that its file asks for (`Steady`).  A delivery keeps that.
-/
import PhpMigration.Proofs.Project.Grants
import PhpMigration.Proofs.Project.Output

namespace PhpMigration

variable {σ : Type}

/-- A place that one of the files is converted to when it has no number. -/
def IsTargetPlace (project : String) (place : List String) (files : List (List String))
    (t : FileTree) (other : List String) : Prop :=
  ∃ file ∈ files, ∃ content,
    Converter.sourceText t (Workshop.folderOf project ++ file) = .ok content ∧
    other = place ++ Path.parts (Mapping.ofFile (Path.join file) content).target

/-- No two files ask for one path. -/
def AskApart (project : String) (files : List (List String)) (t : FileTree) : Prop :=
  ∀ file ∈ files, ∀ file' ∈ files, ∀ content content',
    Converter.sourceText t (Workshop.folderOf project ++ file) = .ok content →
    Converter.sourceText t (Workshop.folderOf project ++ file') = .ok content' →
    (Mapping.ofFile (Path.join file) content).target =
      (Mapping.ofFile (Path.join file') content').target → file = file'

/-- No file is read from a place that a file is converted to. -/
def ReadApart (project : String) (place : List String) (files : List (List String))
    (t : FileTree) : Prop :=
  ∀ file ∈ files,
    t.ReadsApart (Workshop.folderOf project ++ file) (IsTargetPlace project place files t)

/-- The files of a project do not meet. -/
structure AreSeparate (project : String) (place : List String) (files : List (List String))
    (t : FileTree) : Prop where
  apart : ReadApart project place files t
  targets : AskApart project files t

/-! ### What attempts rely on -/

/-- Nothing has been written since but converted files, and every path that is held is the one that
its file asks for. -/
structure Steady (project : String) (place : List String) (files : List (List String))
    (w w' : Workshop σ) : Prop where
  built : w.tree.Built (fun _ => True) w'.tree
  folders : ∀ other entries, w'.tree.top.at? other = some (.folder entries) →
    ∃ entries', w.tree.top.at? other = some (.folder entries')
  outside : ∀ other content, ¬ IsTargetPlace project place files w.tree other →
    (w'.tree.top.at? other = some (.file content) ↔ w.tree.top.at? other = some (.file content))
  fair : (w'.claimsOf project).IsFair
  held : ∀ path owner, (path, owner) ∈ w'.claimsOf project → ∃ file ∈ files, ∃ content,
    owner = Path.join file ∧
    Converter.sourceText w.tree (Workshop.folderOf project ++ file) = .ok content ∧
    path = (Mapping.ofFile (Path.join file) content).target

namespace Converter

theorem sourceText_of_read {t t' : FileTree} {path : List String} (h : t'.read path = t.read path) :
    sourceText t' path = sourceText t path := by
  unfold sourceText
  rw [h]

theorem deliver_fst (r : Run) (m : Mapping) (code : String) (w : Workshop σ) :
    (deliver r m code w).1 =
      match (Skeleton.writeFile (r.output ++ Path.parts (given r m w)) code w.tree).1 with
      | .ok () => .ok { m with target := given r m w }
      | .error fault => .error (.storage fault) := by
  unfold deliver
  dsimp only
  split
  · rename_i tree hwrite
    rw [show (Skeleton.writeFile (r.output ++ Path.parts (given r m w)) code w.tree).1 = .ok () from
      congrArg Prod.fst hwrite]
    rfl
  · rename_i fault tree hwrite
    rw [show (Skeleton.writeFile (r.output ++ Path.parts (given r m w)) code w.tree).1 =
      .error fault from congrArg Prod.fst hwrite]

end Converter

namespace Steady

variable {project : String} {place output : List String} {files : List (List String)}
  {w w' w'' : Workshop σ} {file : List String} {content : String}

theorem refl (w : Workshop σ) (hclaims : w.claimsOf project = []) :
    Steady project place files w w := by
  refine ⟨.same, fun _ entries h => ⟨entries, h⟩, fun _ _ _ => Iff.rfl, ?_, ?_⟩
  · rw [hclaims]
    exact Claims.isFair_nil
  · rw [hclaims]
    exact fun _ _ hmem => by cases hmem

theorem congr (h : Steady project place files w w') (htree : w''.tree = w'.tree)
    (hclaims : w''.claims = w'.claims) : Steady project place files w w'' := by
  have hsame : w''.claimsOf project = w'.claimsOf project := by
    unfold Workshop.claimsOf
    rw [hclaims]
  obtain ⟨hbuilt, hfolders, houtside, hfair, hheld⟩ := h
  rw [← htree] at hbuilt hfolders houtside
  rw [← hsame] at hfair hheld
  exact ⟨hbuilt, hfolders, houtside, hfair, hheld⟩

/-- A file reads the same. -/
theorem sourceText_eq (h : Steady project place files w w')
    (hseparate : AreSeparate project place files w.tree) (hfile : file ∈ files) :
    Converter.sourceText w'.tree (Workshop.folderOf project ++ file) =
      Converter.sourceText w.tree (Workshop.folderOf project ++ file) :=
  Converter.sourceText_of_read (hseparate.apart file hfile w'.tree h.built.grown h.outside)

/-- A file is given the path that it asks for. -/
theorem claim_fst (h : Steady project place files w w')
    (hseparate : AreSeparate project place files w.tree) (hdistinct : (files.map Path.join).Nodup)
    (hfile : file ∈ files)
    (hread : Converter.sourceText w.tree (Workshop.folderOf project ++ file) = .ok content) :
    ((w'.claimsOf project).claim (Path.join file)
      (Mapping.ofFile (Path.join file) content).target).1 =
        (Mapping.ofFile (Path.join file) content).target := by
  unfold Claims.claim
  cases hheld : (w'.claimsOf project).heldBy? (Path.join file) with
  | some path =>
      obtain ⟨other, hother, content', howner, hread', hpath⟩ :=
        h.held _ _ (Claims.mem_of_heldBy? hheld)
      obtain rfl := List.inj_on_of_nodup_map hdistinct hfile hother howner
      rw [hread] at hread'
      cases hread'
      exact hpath
  | none =>
      have hfree : ¬ Table.has (w'.claimsOf project)
          (Mapping.ofFile (Path.join file) content).target = true := by
        intro htaken
        obtain ⟨⟨path, owner⟩, hmem, hpath⟩ :=
          List.mem_map.mp ((Table.has_iff_mem_names _ _).mp htaken)
        obtain ⟨other, hother, content', howner, hread', htarget⟩ := h.held _ _ hmem
        have hsame := hseparate.targets file hfile other hother content content' hread hread'
          (hpath.symm.trans htarget)
        rw [howner, ← hsame] at hmem
        exact Claims.not_mem_of_heldBy? hheld hmem
      show Claims.free _ _ = _
      unfold Claims.free
      rw [if_neg hfree]

/-- Whether a converted file can be written does not change. -/
theorem writeFile_fst (h : Steady project place files w w')
    (hlaid : w.tree.IsLaidOut output place) {path : String} (hpath : IsTarget path) (code : String) :
    (Skeleton.writeFile (output ++ Path.parts path) code w'.tree).1 =
      (Skeleton.writeFile (output ++ Path.parts path) code w.tree).1 := by
  have hshown : ∀ problem, w'.tree.fault problem (output ++ Path.parts path) =
      w.tree.fault problem (output ++ Path.parts path) := by
    intro problem
    unfold FileTree.fault FileTree.shown
    rw [h.built.grown.name]
  rw [(hlaid.built h.built).writeFile_eq hpath, hlaid.writeFile_eq hpath,
    FileTree.refusal?_of_grown h.built.grown h.folders]
  cases w.tree.refusal? (output ++ Path.parts path) (place ++ Path.parts path) with
  | none => rfl
  | some problem => exact congrArg Except.error (hshown problem)

/-- What attempts rely on is kept by a delivery to the path that the file asks for. -/
theorem deliver (h : Steady project place files w w') (hlaid : w.tree.IsLaidOut output place)
    {r : Run} (hproject : r.project = project) (houtput : r.output = output) (hfile : file ∈ files)
    (hread : Converter.sourceText w.tree (Workshop.folderOf project ++ file) = .ok content)
    (hgiven : Converter.given r (.ofFile (Path.join file) content) w' =
      (Mapping.ofFile (Path.join file) content).target) (code : String) :
    Steady project place files w
      (Converter.deliver r (.ofFile (Path.join file) content) code w').2 := by
  obtain ⟨path, hdef⟩ : ∃ path, path = (Mapping.ofFile (Path.join file) content).target := ⟨_, rfl⟩
  have hpath : IsTarget path := by
    rw [hdef]
    exact isTarget_ofFile (Path.join file) content
  have htree := Converter.deliver_tree r (.ofFile (Path.join file) content) code w'
  have hclaims := Converter.deliver_claimsOf r (.ofFile (Path.join file) content) code w'
  rw [hgiven, houtput, ← hdef] at htree
  rw [hproject, ← hdef] at hclaims
  generalize (Converter.deliver r (.ofFile (Path.join file) content) code w').2 = w'' at htree hclaims ⊢
  have hlaid' := hlaid.built h.built
  have hbuilt := hlaid'.built_writeFile hpath code
  have htarget : IsOutputPath path := by
    obtain ⟨role, -, stem, hstem⟩ := hpath
    exact ⟨role, stem, hstem⟩
  rw [← htree] at hbuilt
  refine ⟨h.built.trans (hbuilt.mono fun _ _ => trivial), ?_, ?_, ?_, ?_⟩
  · intro other entries hfolder
    rw [htree] at hfolder
    obtain ⟨entries', hentries⟩ := hlaid'.folder_of_writeFile hpath code hfolder
    exact h.folders other entries' hentries
  · intro other content' hother
    have hne : other ≠ place ++ Path.parts path := by
      rw [hdef]
      exact fun heq => hother ⟨file, hfile, content, hread, heq⟩
    rw [← h.outside other content' hother]
    exact ⟨fun hat => hbuilt.at?_file_of hat hne, fun hat => hbuilt.at?_file hat hne⟩
  · rw [hclaims]
    exact (h.fair.claim _ htarget).1
  · intro path' owner hmem
    rw [hclaims, Claims.mem_claim_iff _ htarget] at hmem
    rcases hmem with hmem | ⟨hnone, hentry⟩
    · exact h.held path' owner hmem
    · cases hentry
      refine ⟨file, hfile, content, rfl, hread, ?_⟩
      have hfirst : ((w'.claimsOf project).claim (Path.join file) path).1 = path := by
        rw [hdef, ← hproject]
        exact hgiven
      have hholds : (w'.claimsOf project).heldBy? (Path.join file) = none := hnone
      unfold Claims.claim at hfirst
      rw [hholds] at hfirst
      exact hfirst.trans hdef

/-- **An attempt comes to what it would have come to at the start.** -/
theorem attempt (h : Steady project place files w w') (hlaid : w.tree.IsLaidOut output place)
    (hseparate : AreSeparate project place files w.tree) (hdistinct : (files.map Path.join).Nodup)
    (hclaims : w.claimsOf project = []) {r : Run} (hproject : r.project = project)
    (houtput : r.output = output) (hfile : file ∈ files) (outcome : Except Incident String) :
    Steady project place files w (Converter.attemptOf r file outcome w').2 ∧
      (Converter.attemptOf r file outcome w').1 = (Converter.attemptOf r file outcome w).1 := by
  have hsame := h.sourceText_eq hseparate hfile
  unfold Converter.attemptOf
  rw [hproject, hsame]
  cases hread : Converter.sourceText w.tree (Workshop.folderOf project ++ file) with
  | error cause => exact ⟨h, rfl⟩
  | ok content =>
      cases outcome with
      | error cause => exact ⟨h, rfl⟩
      | ok code =>
          have hgiven : ∀ {w₁ : Workshop σ}, Steady project place files w w₁ →
              Converter.given r (.ofFile (Path.join file) content) w₁ =
                (Mapping.ofFile (Path.join file) content).target := by
            intro w₁ h₁
            unfold Converter.given
            rw [hproject]
            exact h₁.claim_fst hseparate hdistinct hfile hread
          have hstart := hgiven (.refl w hclaims)
          refine ⟨h.deliver hlaid hproject houtput hfile hread (hgiven h) code, ?_⟩
          dsimp only
          rw [Converter.deliver_fst, Converter.deliver_fst, hgiven h, hstart, houtput,
            h.writeFile_fst hlaid (isTarget_ofFile _ _)]

end Steady

end PhpMigration
