/-
Converting a project twice is converting it once.

What a conversion leaves is what a second one starts from, and `Converts.again` says that the second
one changes nothing, as long as no link lies in the output folder and no source is read from where a
file is converted to (`Converter.IsUnlinked`).  Here that is said of the converter itself, and of
every run that takes up its files in order and settles them in order, whatever the chunks are
(`Converter.isIdempotent`).

It is different where a link leads from the output to a source: the first conversion writes over what
the second one reads (`Converter.not_isIdempotent_of_link`).
-/
import PhpMigration.Proofs.Project.Fallback
import PhpMigration.Proofs.Project.Rerun

namespace PhpMigration

variable {σ : Type}

namespace Converter

/-- No link lies in the output folder when a run is ready, and no source is read from where a file is
converted to in it. -/
def IsUnlinked (c : Converter σ) (project : String) (r : Run) (w w' : Workshop σ) : Prop :=
  ∃ place e files, w.tree.LeadsTo r.output place e ∧ e.HasNoLink ∧
    c.sources project w = .ok files ∧
    ∀ file ∈ files, w.tree.ReadsApart (Workshop.folderOf project ++ file)
      (IsConvertedTo project place w')

/-- **Converting is idempotent.**  A conversion right after one that has come to its end can be made,
and it ends with the same record, the same mappings and the same tree: in whatever order attempts at
different files are made, as long as the files are taken up and settled in order, and also as the
converter makes it by itself. -/
theorem isIdempotent {settings : Settings} {parser : SourceParser} {service : Service σ}
    {outcomes : String → String → Except Incident String} {project : String} {w₀ : Workshop σ}
    (hsound : w₀.tree.top.IsSound) (hspares : settings.SparesTargets) :
    (∀ r w record w',
      (ofService settings parser service).Converts outcomes project w₀ r w record w' →
      (ofService settings parser service).IsUnlinked project r w w' →
      (∃ r₁ w₁ record' w'',
        (ofService settings parser service).Converts outcomes project w' r₁ w₁ record' w'') ∧
      ∀ r₁ w₁ record' w'',
        (ofService settings parser service).Converts outcomes project w' r₁ w₁ record' w'' →
          IsRepeated project record record' w' w'') ∧
    ∀ record w', (ofService settings parser service).Reads outcomes →
      (ofService settings parser service).convertAll project w₀ = (.ok record, w') →
      (∀ w₁ r w, beginRecord project {} w₀ = (.ok (), w₁) →
        (ofService settings parser service).prepare project w₁ = (.ok r, w) →
        (ofService settings parser service).IsUnlinked project r w w') →
      record.status = .completed ∧
      ∃ w'', (ofService settings parser service).convertAll project w' = (.ok record, w'') ∧
        IsRepeated project record record w' w'' := by
  constructor
  · rintro r w record w' h ⟨place, e, files, hleads, hlinks, hsources, hapart⟩
    exact h.again hsound hsources hleads hlinks hapart hspares
  · intro record w' hreads hconverted hunlinked
    obtain ⟨r, w, h⟩ := exists_converts_of_convertAll hreads hconverted
    obtain ⟨w₁, hbegin, hprepare⟩ := h.ready
    obtain ⟨place, e, files, hleads, hlinks, hsources, hapart⟩ := hunlinked w₁ r w hbegin hprepare
    obtain ⟨-, hleaves⟩ := h.leaves hsound hsources hleads hlinks hapart
    exact ⟨hleaves.record ▸ rfl,
      exists_convertAll_again hreads h hsound hsources hleads hlinks hapart hspares⟩

/-! ### A project with one file -/

/-- A conversion of one file that can be read and written is made in three moves. -/
theorem exists_converts_of_writeFile (c : Converter σ)
    (outcomes : String → String → Except Incident String) {project content code : String}
    {output file : List String} {w₀ w₁ w : Workshop σ} {t : FileTree}
    (hbegin : beginRecord project {} w₀ = (.ok (), w₁))
    (hprepare : c.prepare project w₁ = (.ok ⟨project, output, [], [[file]]⟩, w))
    (hread : sourceText w.tree (Workshop.folderOf project ++ file) = .ok content)
    (hcode : outcomes (Path.join file) content = .ok code)
    (hwrite : Skeleton.writeFile
      (output ++ Path.parts (Mapping.ofFile (Path.join file) content).target) code w.tree =
        (.ok (), t)) :
    ∃ record w', c.Converts outcomes project w₀ ⟨project, output, [], [[file]]⟩ w record w' ∧
      w'.tree = t ∧ (w'.record project).status = .completed := by
  obtain ⟨files, -, -, -, -, -, -, -, -, hclaims, hrecord⟩ :=
    prepare_ok (tree_and_record_of_begin hbegin).2 hprepare
  have hdispatch : dispatch ⟨project, output, [], [[file]]⟩ w =
      some ⟨project, output, [⟨file, .waiting 1⟩], []⟩ :=
    dispatch_of_inProgress (r := ⟨project, output, [], [[file]]⟩) (by simp) rfl hrecord.status
  have hplace : ([⟨file, .waiting 1⟩] : List Task)[0]? = some ⟨file, .waiting 1⟩ := rfl
  have hs : Strategy.reading outcomes project w.tree file 1 (.ok code) := by
    intro content' hread'
    cases hread.symm.trans hread'
    exact hcode.symm
  have hgiven : given ⟨project, output, [⟨file, .waiting 1⟩], []⟩
      (.ofFile (Path.join file) content) w = (Mapping.ofFile (Path.join file) content).target := by
    unfold given Workshop.claimsOf
    rw [hclaims]
    rfl
  obtain ⟨m, w₂, -, hplayed, htree, -, hledger⟩ := exists_played_of_writeFile c
    (r := ⟨project, output, [⟨file, .waiting 1⟩], []⟩) hplace hs hread (hgiven ▸ hwrite)
  have hsettle : Played c (.reading outcomes project w₂.tree) (.settle 0) none
      ⟨project, output, [⟨file, .converted m⟩], []⟩ w₂
      ⟨project, output, [⟨file, .settled⟩], []⟩ ((w₂.addMapping project m).settle project none).2 :=
    .settle rfl
  have hinOrder : InOrder c outcomes ⟨project, output, [], [[file]]⟩ w [⟨file, .ok (m, code)⟩]
      ⟨project, output, [⟨file, .settled⟩], []⟩
      ((w₂.addMapping project m).settle project none).2 :=
    ((InOrder.start.next (m := .dispatch) trivial (.dispatch hdispatch)).next
      (m := .attempt 0) (by simp [Move.IsInOrder]) hplayed).next
      (m := .settle 0) (by simp [Move.IsInOrder]) hsettle
  refine ⟨(conclude project ((w₂.addMapping project m).settle project none).2).1,
    (conclude project ((w₂.addMapping project m).settle project none).2).2,
    ⟨⟨w₁, hbegin, hprepare⟩, _, _, _, hinOrder, ⟨by simp [Task.isSettled], rfl⟩, rfl⟩, ?_, ?_⟩
  · rw [conclude_tree, ← htree]
    exact Workshop.enter_tree _
  · have hrecord₂ : ((w₂.addMapping project m).record project).IsUnderWay 0 files.length [] := by
      unfold Workshop.record at hrecord ⊢
      rw [← hledger] at hrecord
      exact hrecord
    exact congrArg Record.status (conclude_record (Workshop.settle_of_isUnderWay hrecord₂ none))

/-- A utility of an earlier conversion. -/
def oldUtility : List (String × Entry) := [("a.ts", .file ByteArray.empty)]

/-- A project with one file and no link is converted twice as it is converted once. -/
theorem isIdempotent_small : ∃ (r : Run) (w : Workshop Unit) (record : Record) (w' : Workshop Unit),
    (Workshop.small ["a.php"] oldUtility).tree.top.IsSound ∧ Settings.small.SparesTargets ∧
    small.Converts (fun _ _ => .ok "1") "demo" (.small ["a.php"] oldUtility) r w record w' ∧
    small.IsUnlinked "demo" r w w' ∧
    ∀ r₁ w₁ record' w'', small.Converts (fun _ _ => .ok "1") "demo" w' r₁ w₁ record' w'' →
      IsRepeated "demo" record record' w' w'' := by
  have hsound : (Workshop.small ["a.php"] oldUtility).tree.top.IsSound := by
    simp only [Workshop.small, FileTree.small, Entry.skeleton, oldUtility, Entry.IsSound, EachSound,
      List.map, Table.names]
    decide
  have hspares : Settings.small.SparesTargets := ⟨[".php"], rfl, by decide, by decide⟩
  obtain ⟨w₁, w, hbegin, hprepare, htree⟩ :=
    exists_prepare_begun oldUtility sorted_one (by decide) (List.cons_ne_nil _ _)
  rw [show chunksOf 1 (["a.php"].map fun n => [n]) = [[["a.php"]]] from chunksOf_one _] at hprepare
  have hsource := leadsTo_one oldUtility
  rw [← htree] at hsource
  have hfolder : w.tree.isFolder ["demo", "converted", "utils"] = true :=
    htree ▸ (stands_small ["a.php"] oldUtility "demo").folders "utils" (by decide)
  have hfile : w.tree.LeadsTo ["demo", "converted", "utils", "a.ts"]
      ["demo", "converted", "utils", "a.ts"] (.file ByteArray.empty) :=
    htree ▸ leadsTo_small rfl (fun _ h => by cases h) (by decide) (by decide)
  obtain ⟨record, w', hconverts, -⟩ := exists_converts_of_writeFile small
    (fun _ _ => .ok "1") hbegin hprepare (sourceText_small hsource) rfl (by
      rw [show Path.parts (Mapping.ofFile (Path.join ["a.php"]) "").target = ["utils", "a.ts"] by
        decide]
      exact writeFile_of_leadsTo hfile hfolder "1")
  have hunlinked : small.IsUnlinked "demo" ⟨"demo", ["demo", "converted"], [], [[["a.php"]]]⟩ w
      w' := by
    refine ⟨["demo", "converted"], .skeleton oldUtility, [["a.php"]], ?_,
      hasNoLink_skeleton (by simp [oldUtility, Entry.hasNoLink_file]),
      sources_small htree sorted_one (by decide), ?_⟩
    · exact htree ▸ leadsTo_small rfl (fun _ h => by cases h) (by decide) (by decide)
    · intro file hfile
      cases List.mem_singleton.mp hfile
      refine FileTree.readsApart_of_leadsTo hsource ?_
      rintro ⟨m, -, hplace⟩
      exact absurd (List.cons_eq_cons.mp (List.cons_eq_cons.mp hplace).2).1 (by decide)
  exact ⟨_, w, record, w', hsound, hspares, hconverts, hunlinked,
    ((@isIdempotent _ .small parseSource (fun _ s => (.ok "", s)) _ _ _ hsound hspares).1 _ w record
      w' hconverts hunlinked).2⟩

end Converter

/-! ### A link to the source -/

/-- A project with one source, to which a link leads from where it is converted to. -/
def FileTree.linked (content : String) : FileTree :=
  (FileTree.small ["a.php"] [("a.ts", .link ["demo", "a.php"])]).put ["demo", "a.php"]
    (.file (Text.Utf8.encode content))

/-- The workshop with this project and nothing else. -/
def Workshop.linked (content : String) : Workshop Unit := { tree := .linked content, service := () }

namespace Converter

theorem grown_linked (content : String) :
    (FileTree.small ["a.php"] [("a.ts", .link ["demo", "a.php"])]).Grown (.linked content) := by
  refine ⟨rfl, Entry.grown_put ⟨Entry.fits_of_at? (e := .file ByteArray.empty) rfl, ?_⟩⟩
  intro e he
  cases he
  exact ⟨_, _, rfl, rfl⟩

/-- The paths of the project are not too long, whatever the source holds. -/
theorem isShort {content : String} {path : List String}
    (h : ¬ maxPathBytes < (Path.join ("uploads" :: path)).utf8ByteSize) :
    ¬ maxPathBytes < ((FileTree.linked content).shown path).utf8ByteSize := h

/-- The source is read where it is, and written where it is converted to. -/
theorem leadsTo_linked_source (content : String) :
    (FileTree.linked content).LeadsTo ["demo", "a.php"] ["demo", "a.php"]
        (.file (Text.Utf8.encode content)) ∧
      (FileTree.linked content).LeadsTo ["demo", "converted", "utils", "a.ts"] ["demo", "a.php"]
        (.file (Text.Utf8.encode content)) :=
  ⟨FileTree.leadsTo_of_at? ⟨by decide, isShort (by decide)⟩ rfl (fun _ h => by cases h)
      (by decide) (by decide),
    FileTree.leadsTo_of_link ["demo", "converted", "utils"] "a.ts"
      ⟨by decide, isShort (by decide)⟩ rfl (by decide) (by decide) rfl (fun _ h => by cases h)
      (by decide) (by decide)⟩

theorem isSound_linked_source : (FileTree.linked "").top.IsSound := by
  show (Entry.folder [("demo", .folder [("converted", .skeleton [("a.ts", .link _)]),
    ("a.php", .file _)])]).IsSound
  simp only [Entry.skeleton, Entry.IsSound, EachSound, List.map, Table.names]
  decide

theorem sources_linked {content : String} {w : Workshop Unit} (htree : w.tree = .linked content) :
    small.sources "demo" w = .ok [["a.php"]] := by
  have hdemo : w.tree.LeadsTo ["demo"] ["demo"] (.folder
      [("converted", .skeleton [("a.ts", .link ["demo", "a.php"])]),
        ("a.php", .file (Text.Utf8.encode content))]) :=
    htree ▸ FileTree.leadsTo_of_at? ⟨by decide, isShort (by decide)⟩ rfl (fun _ h => by cases h)
      (by decide) (by decide)
  have hsuffix : ∀ name ∈ ["a.php"], Discovery.hasSuffix [".php"] name = true := by decide
  exact sources_beside_skeleton hdemo (by simp) (List.pairwise_singleton _ _) hsuffix

/-- Whatever the source is converted to is its text from then on. -/
theorem exists_converts_linked (outcomes : String → String → Except Incident String)
    {content code : String} {w₀ w₁ : Workshop Unit}
    (hbegin : beginRecord "demo" {} w₀ = (.ok (), w₁)) (htree : w₁.tree = .linked content)
    (hcontent : withoutMarks (Text.withLineFeeds content) = content)
    (htarget : (Mapping.ofFile "a.php" content).target = "utils/a.ts")
    (hcode : outcomes "a.php" content = .ok code) :
    ∃ r w record w', small.Converts outcomes "demo" w₀ r w record w' ∧ w'.tree = .linked code ∧
      (w'.record "demo").status = .completed := by
  obtain ⟨hsource, hlink⟩ := leadsTo_linked_source content
  have hstands : Skeleton.Stands ["demo", "converted"] "demo" (.linked content) :=
    (stands_small ["a.php"] [("a.ts", .link ["demo", "a.php"])] "demo").grown (grown_linked content)
  obtain ⟨w, hprepare, hsame⟩ := prepare_of_grown (grown_linked content) htree
    (sources_linked htree) (List.cons_ne_nil _ _)
  rw [chunksOf_one] at hprepare
  have hread : sourceText w.tree (Workshop.folderOf "demo" ++ ["a.php"]) = .ok content := by
    rw [hsame, show Workshop.folderOf "demo" = ["demo"] by decide]
    exact (sourceText_of_leadsTo hsource).trans (congrArg Except.ok hcontent)
  have hwrite : Skeleton.writeFile (["demo", "converted"] ++
      Path.parts (Mapping.ofFile (Path.join ["a.php"]) content).target) code w.tree =
        (.ok (), .linked code) := by
    rw [hsame, show Path.join ["a.php"] = "a.php" by decide, htarget,
      show Path.parts "utils/a.ts" = ["utils", "a.ts"] by decide]
    exact writeFile_of_leadsTo hlink (hstands.folders "utils" (by decide)) code
  obtain ⟨record, w', hconverts, htree', hended⟩ :=
    exists_converts_of_writeFile small outcomes hbegin hprepare hread hcode hwrite
  exact ⟨_, w, record, w', hconverts, htree', hended⟩

/-- **A second conversion reads what the first has written over** if a link leads there. -/
theorem not_isIdempotent_of_link : ¬ ∀ (outcomes : String → String → Except Incident String)
    (w₀ : Workshop Unit) (r : Run) (w : Workshop Unit) (record : Record) (w' : Workshop Unit)
    (r₁ : Run) (w₁ : Workshop Unit) (record' : Record) (w'' : Workshop Unit),
    w₀.tree.top.IsSound → small.Converts outcomes "demo" w₀ r w record w' →
    small.Converts outcomes "demo" w' r₁ w₁ record' w'' →
    IsRepeated "demo" record record' w' w'' := by
  intro hall
  obtain ⟨w₁, hbegin, htree⟩ : ∃ w₁, beginRecord "demo" {} (.linked "") = (.ok (), w₁) ∧
      w₁.tree = .linked "" := ⟨_, rfl, rfl⟩
  obtain ⟨r, w, record, w', hfirst, htree', hended⟩ := exists_converts_linked
    (fun _ content => .ok (content ++ "1")) hbegin htree (by decide) (by decide) rfl
  obtain ⟨w₂, hbegin', hsame⟩ := exists_begin_of_completed hended
  obtain ⟨r', w₃, record', w'', hsecond, htree'', -⟩ := exists_converts_linked
    (fun _ content => .ok (content ++ "1")) hbegin' (hsame.trans htree') (by decide) (by decide) rfl
  have hkept : FileTree.linked "11" = .linked "1" := htree''.symm.trans
    ((hall _ _ r w record w' r' w₃ record' w'' isSound_linked_source hfirst hsecond).tree.trans
      htree')
  have hsource := (leadsTo_linked_source "11").1
  rw [hkept] at hsource
  have hlost : Text.Utf8.encode "11" = Text.Utf8.encode "1" :=
    Entry.file.inj (hsource.unique (leadsTo_linked_source "1").1).2
  exact absurd (Text.Utf8.encode_injective hlost) (by decide)

end Converter

end PhpMigration
