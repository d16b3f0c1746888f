/-
What becomes of the skeleton while files are converted.

The files of a skeleton are not claimed by anybody, so nothing keeps a converted file from being
written to the place of one.  A file of the skeleton keeps its content just as long as no other text
is written to its place last (`Plays.keepsScaffold_iff`).

Where no link lies in the output, one path can be met only: that of the database, by a file of the
configuration whose name becomes "database" in camel case (`isDatabase_of_isAskedFor`).  All other
files of a skeleton lie in no folder for a role.  A path with a number is never one of a skeleton, because no
name there ends in a digit.
-/
import PhpMigration.Proofs.Project.Account
import PhpMigration.Proofs.Project.Grants
import PhpMigration.Proofs.Project.Strategy

namespace PhpMigration

variable {σ : Type}

/-- Every file of a skeleton has the content that it had. -/
def KeepsScaffold (project : String) (output : List String) (t t' : FileTree) : Prop :=
  ∀ name ∈ (Boilerplate.files project).names, ∀ place content,
    t.LeadsTo (output ++ Path.parts name) place (.file content) →
    t'.LeadsTo (output ++ Path.parts name) place (.file content)

/-- The text that is written last to the place of a file of the skeleton is another one. -/
def IsWrittenOver (output : List String) (t t' : FileTree) (trials : List Trial)
    (name code : String) : Prop :=
  ∃ place content, t.LeadsTo (output ++ Path.parts name) place (.file content) ∧
    lastWritten? t' output place trials = some code ∧ Text.Utf8.encode code ≠ content

/-! ### What files ask for -/

/-- The path is one that a file asks for with some text, or such a path with a number. -/
def IsAskedFor (file path : String) : Prop :=
  ∃ content, path = (Mapping.ofFile file content).target ∨
    ∃ n, path = Claims.numbered (Mapping.ofFile file content).target n

/-- Files only hold paths that they have asked for. -/
def Claims.AreAskedFor (c : Claims) : Prop := ∀ path file, (path, file) ∈ c → IsAskedFor file path

theorem Claims.AreAskedFor.claim {c : Claims} (h : c.AreAskedFor) (file content : String) :
    (c.claim file (Mapping.ofFile file content).target).2.AreAskedFor ∧
      IsAskedFor file (c.claim file (Mapping.ofFile file content).target).1 := by
  have htarget := Attempted.isOutputPath_ofFile file content
  have hfree : IsAskedFor file (c.free (Mapping.ofFile file content).target) :=
    ⟨content, free_eq_or c _⟩
  refine ⟨fun path other hmem => ?_, ?_⟩
  · rcases (mem_claim_iff c htarget).mp hmem with hmem | ⟨-, hentry⟩
    · exact h path other hmem
    · cases hentry
      exact hfree
  · unfold Claims.claim
    cases hheld : c.heldBy? file with
    | none => exact hfree
    | some path => exact h path file (mem_of_heldBy? hheld)

/-- The claims of an attempt are those before it, or those with the claim of its file. -/
theorem Attempted.claims_cases {r : Run} {file : List String} {w w' : Workshop σ}
    {result : Except Incident (Mapping × String)} (h : Attempted r file w result w') :
    ((∀ m code, result ≠ .ok (m, code)) ∧ w'.claims = w.claims) ∨ ∃ content,
      w'.claimsOf r.project = ((w.claimsOf r.project).claim (Path.join file)
        (Mapping.ofFile (Path.join file) content).target).2 ∧
      ∀ m code, result = .ok (m, code) → m.target = ((w.claimsOf r.project).claim (Path.join file)
        (Mapping.ofFile (Path.join file) content).target).1 := by
  cases h with
  | unread cause => exact .inl ⟨fun _ _ h => (by cases h), rfl⟩
  | unconverted cause s => exact .inl ⟨fun _ _ h => (by cases h), rfl⟩
  | unwritten cause content part s =>
      exact .inr ⟨content, Converter.deliver_claimsOf r _ part _, fun _ _ h => (by cases h)⟩
  | delivered content code s h =>
      have hclaims := Converter.deliver_claimsOf r (.ofFile (Path.join file) content) code
        { w with service := s }
      obtain ⟨hm, -⟩ := Converter.deliver_ok (congrArg Prod.fst h)
      rw [h] at hclaims
      refine .inr ⟨content, hclaims, fun m' code' hok => ?_⟩
      cases hok
      rw [hm]
      rfl

section

variable {c : Converter σ} {m : Move} {moves : List Move} {trial : Option Trial}
  {trials : List Trial} {r r' : Run} {w w' : Workshop σ}

theorem Moved.areAskedFor (h : Moved c m trial r w r' w')
    (hasked : (w.claimsOf r.project).AreAskedFor) :
    (w'.claimsOf r.project).AreAskedFor ∧ ∀ t ∈ trial, ∀ m code, t.result = .ok (m, code) →
      IsAskedFor (Path.join t.file) m.target := by
  have hattempt : ∀ {file : List String} {result : Except Incident (Mapping × String)}
      {w₁ : Workshop σ}, Attempted r file w result w₁ →
      (w₁.claimsOf r.project).AreAskedFor ∧ ∀ m code, result = .ok (m, code) →
        IsAskedFor (Path.join file) m.target := by
    intro file result w₁ hattempt
    rcases hattempt.claims_cases with ⟨hfailed, hclaims⟩ | ⟨content, hclaims, htarget⟩
    · refine ⟨?_, fun m code hok => absurd hok (hfailed m code)⟩
      unfold Workshop.claimsOf at hasked ⊢
      rwa [hclaims]
    · obtain ⟨hafter, hgiven⟩ := hasked.claim (Path.join file) content
      rw [hclaims]
      refine ⟨hafter, fun m code hok => ?_⟩
      rw [htarget m code hok]
      exact hgiven
  cases h with
  | dispatch h => exact ⟨hasked, fun _ ht => by cases ht⟩
  | converted ht h =>
      obtain ⟨hafter, hgiven⟩ := hattempt h
      refine ⟨hafter, fun t ht => ?_⟩
      cases ht
      exact hgiven
  | missed ht h =>
      rename_i n file cause w₁
      obtain ⟨hafter, -⟩ := hattempt h
      refine ⟨?_, fun t ht m code hok => ?_⟩
      · unfold Workshop.claimsOf at hafter ⊢
        rwa [Converter.afterFailure_claims]
      · cases ht
        cases hok
  | settle h =>
      refine ⟨?_, fun _ ht => by cases ht⟩
      unfold Workshop.claimsOf at hasked ⊢
      rwa [Converter.settleFile_claims h]

/-- Whatever the attempts come to, files are only given paths that they have asked for. -/
theorem Course.areAskedFor (h : Course c r w moves trials r' w')
    (hasked : (w.claimsOf r.project).AreAskedFor) :
    r'.project = r.project ∧ (w'.claimsOf r.project).AreAskedFor ∧
      ∀ t ∈ trials, ∀ m code, t.result = .ok (m, code) → IsAskedFor (Path.join t.file) m.target := by
  induction h with
  | start => exact ⟨rfl, hasked, by simp⟩
  | next h hmove ih =>
      obtain ⟨hproject, hafter, htrials⟩ := ih
      rw [← hproject] at hafter ⊢
      obtain ⟨hafter', htrial⟩ := hmove.areAskedFor hafter
      refine ⟨hmove.project, hafter', fun t ht => ?_⟩
      rcases List.mem_append.mp ht with ht | ht
      · exact htrials t ht
      · exact htrial t (Option.mem_toList.mp ht)

end

/-! ### Where a skeleton can be met -/

/-- A file of the configuration whose name becomes that of the database. -/
def IsDatabase (file : String) : Prop :=
  camelCase (Path.stem file) = "database" ∧ ∃ content, Role.classify content file = .config

theorem IsAskedFor.isOutputPath {file path : String} (h : IsAskedFor file path) :
    IsOutputPath path := by
  obtain ⟨content, hpath | ⟨n, hpath⟩⟩ := h
  · rw [hpath]
    exact Attempted.isOutputPath_ofFile file content
  · rw [hpath]
    exact Claims.isOutputPath_numbered (Attempted.isOutputPath_ofFile file content) n

/-- No name with a number at its end is that of the database. -/
theorem append_toString_ne_database (front : String) (n : Nat) :
    front ++ toString n ≠ "database" := by
  intro heq
  have hchars := congrArg String.toList heq
  rw [String.toList_append, Text.toList_toString] at hchars
  have hlast := congrArg List.getLast? hchars
  rw [List.getLast?_append] at hlast
  cases hdigit : (Nat.toDigits 10 n).getLast? with
  | none => exact absurd (List.getLast?_eq_none_iff.mp hdigit) Nat.toDigits_ne_nil
  | some digit =>
      rw [hdigit] at hlast
      have hletter : digit = 'e' := Option.some.inj hlast
      have hmem := List.mem_of_getLast? hdigit
      rw [hletter] at hmem
      exact absurd (Text.isDigit_of_mem_toDigits hmem) (by decide)

/-- All files of a skeleton but that of the database lie beside the folders for roles, or in the one
for types. -/
theorem cases_of_mem_names {project name : String}
    (h : name ∈ (Boilerplate.files project).names) : name = "config/database.ts" ∨
      (Path.parts name).length = 1 ∨ (Path.parts name).head? = some "types" := by
  have hall : ∀ name ∈ ["index.ts", "package.json", "tsconfig.json", "README.md", ".env.example",
      "config/database.ts", "types/database.ts"], name = "config/database.ts" ∨
      (Path.parts name).length = 1 ∨ (Path.parts name).head? = some "types" := by decide
  exact hall name h

theorem dots_not_mem_parts_of_mem_names {project name : String}
    (h : name ∈ (Boilerplate.files project).names) : ".." ∉ Path.parts name := by
  have hall : ∀ name ∈ ["index.ts", "package.json", "tsconfig.json", "README.md", ".env.example",
      "config/database.ts", "types/database.ts"], ".." ∉ Path.parts name := by decide
  exact hall name h

/-- The only file of a skeleton that a file can ask for is the database. -/
theorem isDatabase_of_isAskedFor {project file path name : String} (h : IsAskedFor file path)
    (hname : name ∈ (Boilerplate.files project).names) (heq : Path.parts path = Path.parts name) :
    name = "config/database.ts" ∧ IsDatabase file := by
  obtain ⟨content, hpath⟩ := h
  obtain ⟨role, hrole⟩ : ∃ role, role = Role.classify content file := ⟨_, rfl⟩
  have hrename := role.isName_rename (Path.isName_stem file)
  have htarget : (Mapping.ofFile file content).target =
      role.folder ++ "/" ++ role.rename (Path.stem file) ++ targetSuffix := by
    rw [hrole]
    rfl
  -- the path lies in the folder of the role, under a name that is the file's or a numbered one
  obtain ⟨stem, hstem, rfl, hshape⟩ : ∃ stem, Path.IsName stem ∧
      path = role.folder ++ "/" ++ stem ++ targetSuffix ∧
      (stem = role.rename (Path.stem file) ∨
        ∃ (front : String) (n : Nat), stem = front ++ toString n) := by
    rw [htarget] at hpath
    rcases hpath with hpath | ⟨n, hpath⟩
    · exact ⟨_, hrename, hpath, .inl rfl⟩
    · refine ⟨_, Path.isName_append hrename (Claims.isName_toString n), ?_, .inr ⟨_, n, rfl⟩⟩
      rw [hpath, Claims.numbered_append, ← String.append_assoc]
  rw [IsOutputPath.parts_eq role hstem] at heq
  rcases cases_of_mem_names hname with rfl | hlength | hhead
  · rw [show Path.parts "config/database.ts" = ["config", "database" ++ targetSuffix] by
      decide] at heq
    obtain ⟨hfolder, hfile⟩ := List.cons_eq_cons.mp heq
    have hsame : stem = "database" :=
      (String.append_left_inj targetSuffix).mp (List.cons_eq_cons.mp hfile).1
    have hconfig : role = .config := by
      revert hfolder
      cases role <;> decide
    refine ⟨rfl, ?_, content, hrole.symm.trans hconfig⟩
    rcases hshape with hshape | ⟨front, n, hshape⟩
    · rw [← hsame, hshape, hconfig]
      rfl
    · exact absurd (hshape.symm.trans hsame) (append_toString_ne_database front n)
  · rw [← heq] at hlength
    exact absurd hlength (Nat.succ_ne_self 1)
  · rw [← heq] at hhead
    have hfolder : role.folder ≠ "types" := by cases role <;> decide
    exact absurd (Option.some.inj hhead) hfolder

/-! ### What is kept -/

section

variable {c : Converter σ} {strategy : Strategy} {project : String} {trials : List Trial}
  {r r' : Run} {w₁ w w' : Workshop σ}

/-- **A skeleton is kept just as long as none of its files is written over.**  In an output without
links, only the file of the database can be, by a file of the configuration with its name. -/
theorem Plays.keepsScaffold_iff (hprepare : c.prepare project w₁ = (.ok r, w))
    (h : Plays c strategy r w trials r' w') :
    (KeepsScaffold project r.output w.tree (Converter.conclude project w').2.tree ↔
      ∀ name ∈ (Boilerplate.files project).names, ∀ code,
        ¬ IsWrittenOver r.output w.tree w'.tree trials name code) ∧
      ((∃ place e, w.tree.LeadsTo r.output place e ∧ e.HasNoLink) →
        ∀ name ∈ (Boilerplate.files project).names, ∀ code,
          IsWrittenOver r.output w.tree w'.tree trials name code →
          name = "config/database.ts" ∧ ∃ t ∈ trials, ∃ m, t.result = .ok (m, code) ∧
            m.target = name ∧ IsDatabase (Path.join t.file)) := by
  obtain ⟨moves, hcourse⟩ := h.course
  rw [Converter.conclude_tree]
  refine ⟨⟨?_, ?_⟩, ?_⟩
  · rintro hkeeps name hname code ⟨place, content, hleads, hlast, hne⟩
    have hbefore := (FileTree.leadsTo_iff.mp hleads).2.2
    have hafter := (FileTree.leadsTo_iff.mp (hkeeps name hname place content hleads)).2.2
    have hfile := h.at?_file hbefore (.refl _)
    rw [hlast, hafter] at hfile
    exact hne (Entry.file.inj (Option.some.inj hfile)).symm
  · intro hsame name hname place content hleads
    have hfile := h.at?_file (FileTree.leadsTo_iff.mp hleads).2.2 (.refl _)
    have hcontent : ((lastWritten? w'.tree r.output place trials).map Text.Utf8.encode).getD
        content = content := by
      cases hlast : lastWritten? w'.tree r.output place trials with
      | none => rfl
      | some code =>
          by_contra hne
          exact hsame name hname code ⟨place, content, hleads, hlast, hne⟩
    rw [hcontent] at hfile
    obtain ⟨e, hleads', -⟩ := hcourse.grown.leadsTo hleads
    have he := (FileTree.leadsTo_iff.mp hleads').2.2
    rw [hfile] at he
    rwa [← Option.some.inj he] at hleads'
  · rintro ⟨folder, inner, hfolder, hlinks⟩ name hname code ⟨place, content, hleads, hlast, -⟩
    obtain ⟨t, ht, m, e, hresult, hwritten⟩ := exists_of_lastWritten? hlast
    obtain ⟨files, -, -, hproject, -, -, -, -, -, hclaims, -⟩ := Converter.prepare_start hprepare
    have hstart : (w.claimsOf r.project).AreAskedFor := by
      unfold Workshop.claimsOf
      rw [hproject, hclaims]
      exact fun _ _ hmem => by cases hmem
    have hasked := (hcourse.areAskedFor hstart).2.2 t ht m code hresult
    -- both paths lead straight on from the output, and to the same place
    obtain ⟨inner', hfolder', hlinks'⟩ := h.built.leadsTo_hasNoLink hfolder hlinks
    obtain ⟨e', hleads', -⟩ := hcourse.grown.leadsTo hleads
    have hplace := hfolder'.place_of_hasNoLink hlinks' hasked.isOutputPath.dots_not_mem_parts hwritten
    have hplace' := hfolder'.place_of_hasNoLink hlinks' (dots_not_mem_parts_of_mem_names hname)
      hleads'
    have hparts : Path.parts m.target = Path.parts name :=
      List.append_cancel_left (hplace.symm.trans hplace')
    obtain ⟨rfl, hdatabase⟩ := isDatabase_of_isAskedFor hasked hname hparts
    have hname' : IsOutputPath "config/database.ts" := ⟨.config, "database", by decide, by decide⟩
    exact ⟨rfl, t, ht, m, hresult, hasked.isOutputPath.parts_injective hname' hparts, hdatabase⟩

end

/-! ### A file that is written over -/

/-- What the file about the connection holds. -/
def connection : String := "<?php $connection = 'x';"

/-- The small project with a file that is taken for a database. -/
def FileTree.database : FileTree :=
  (FileTree.small ["database.php"] []).put ["demo", "database.php"]
    (.file (Text.Utf8.encode connection))

/-- The workshop with this project and nothing else. -/
def Workshop.database : Workshop Unit := { tree := .database, service := () }

namespace Converter

theorem grown_database : (FileTree.small ["database.php"] []).Grown .database := by
  refine ⟨rfl, Entry.grown_put ⟨Entry.fits_of_at? (e := .file ByteArray.empty) rfl, ?_⟩⟩
  intro e he
  cases he
  exact ⟨_, _, rfl, rfl⟩

theorem leadsTo_database : FileTree.database.LeadsTo ["demo", "database.php"]
    ["demo", "database.php"] (.file (Text.Utf8.encode connection)) := by
  refine FileTree.leadsTo_of_at? ⟨by decide, by decide⟩ rfl
    (fun _ h => by cases h) (by decide) (by decide)

theorem sources_database {w : Workshop Unit} (htree : w.tree = .database) :
    small.sources "demo" w = .ok [["database.php"]] := by
  have hdemo : w.tree.LeadsTo ["demo"] ["demo"] (.folder [("converted", .skeleton []),
      ("database.php", .file (Text.Utf8.encode connection))]) :=
    htree ▸ FileTree.leadsTo_of_at? ⟨by decide, by decide⟩ rfl (fun _ h => by cases h)
      (by decide) (by decide)
  exact sources_beside_skeleton hdemo (by simp) (List.pairwise_singleton _ _) (by decide)

/-- The project is ready when its record has been begun. -/
theorem exists_prepare_database : ∃ w₁ w, beginRecord "demo" {} .database = (.ok (), w₁) ∧
    small.prepare "demo" w₁ = (.ok ⟨"demo", ["demo", "converted"], [], [[["database.php"]]]⟩, w) ∧
    w.tree = .database := by
  obtain ⟨w₁, hbegin, htree⟩ : ∃ w₁, beginRecord "demo" {} .database = (.ok (), w₁) ∧
      w₁.tree = .database := ⟨_, rfl, rfl⟩
  obtain ⟨w, hprepare, hsame⟩ := prepare_of_grown grown_database htree (sources_database htree)
    (List.cons_ne_nil _ _)
  rw [chunksOf_one] at hprepare
  exact ⟨w₁, w, hbegin, hprepare, hsame⟩

theorem sourceText_database :
    sourceText .database ["demo", "database.php"] = .ok connection :=
  (sourceText_of_leadsTo leadsTo_database).trans (congrArg Except.ok (by decide))

/-- The file is converted to the place of the database, and the text that was there is lost. -/
theorem exists_plays_database : ∃ (w₁ w w' : Workshop Unit) (r r' : Run) (m : Mapping),
    beginRecord "demo" {} .database = (.ok (), w₁) ∧ small.prepare "demo" w₁ = (.ok r, w) ∧
    Plays small .free r w [⟨["database.php"], .ok (m, "1")⟩] r' w' ∧ r'.IsOver ∧
    (∃ place e, w.tree.LeadsTo r.output place e ∧ e.HasNoLink) ∧
    ¬ KeepsScaffold "demo" r.output w.tree (conclude "demo" w').2.tree := by
  obtain ⟨w₁, w, hbegin, hprepare, htree⟩ := exists_prepare_database
  obtain ⟨files, -, -, -, -, -, -, -, -, hclaims, hrecord⟩ :=
    prepare_ok (tree_and_record_of_begin hbegin).2 hprepare
  have hold : w.tree.LeadsTo ["demo", "converted", "config", "database.ts"]
      ["demo", "converted", "config", "database.ts"] (.file ByteArray.empty) := by
    rw [htree]
    exact FileTree.leadsTo_of_at? ⟨by decide, by decide⟩ rfl
      (fun _ h => by cases h) (by decide) (by decide)
  have hfolder : w.tree.isFolder ["demo", "converted", "config"] = true := by
    rw [htree]
    exact ((stands_small ["database.php"] [] "demo").grown grown_database).folders "config"
      (by decide)
  have hwrite := writeFile_of_leadsTo hold hfolder "1"
  have hdispatch : dispatch ⟨"demo", ["demo", "converted"], [], [[["database.php"]]]⟩ w =
      some ⟨"demo", ["demo", "converted"], [⟨["database.php"], .waiting 1⟩], []⟩ :=
    dispatch_of_inProgress (r := ⟨"demo", ["demo", "converted"], [], [[["database.php"]]]⟩)
      (by simp) rfl hrecord.status
  have hgiven : given ⟨"demo", ["demo", "converted"], [⟨["database.php"], .waiting 1⟩], []⟩
      (.ofFile (Path.join ["database.php"]) connection) w = "config/database.ts" := by
    unfold given Workshop.claimsOf
    rw [hclaims]
    decide
  have hplace : ([⟨["database.php"], .waiting 1⟩] : List Task)[0]? =
      some ⟨["database.php"], .waiting 1⟩ := rfl
  have hs : Strategy.free ["database.php"] 1 (.ok "1") := trivial
  have hread : sourceText w.tree (Workshop.folderOf "demo" ++ ["database.php"]) =
      .ok connection := by
    rw [htree, show Workshop.folderOf "demo" = ["demo"] by decide]
    exact sourceText_database
  have hwritten : Skeleton.writeFile (["demo", "converted"] ++ Path.parts
      (given ⟨"demo", ["demo", "converted"], [⟨["database.php"], .waiting 1⟩], []⟩
        (.ofFile (Path.join ["database.php"]) connection) w)) "1" w.tree =
      (.ok (), w.tree.put ["demo", "converted", "config", "database.ts"]
        (.file (Text.Utf8.encode "1"))) := by
    rw [hgiven, show Path.parts "config/database.ts" = ["config", "database.ts"] by decide]
    exact hwrite
  obtain ⟨m, w₂, -, hplayed, htree₂, -, -⟩ := exists_played_of_writeFile small
    (r := ⟨"demo", ["demo", "converted"], [⟨["database.php"], .waiting 1⟩], []⟩) (w := w)
    hplace hs hread hwritten
  have hsettle : Played small .free (.settle 0) none
      ⟨"demo", ["demo", "converted"], [⟨["database.php"], .converted m⟩], []⟩ w₂
      ⟨"demo", ["demo", "converted"], [⟨["database.php"], .settled⟩], []⟩ _ := .settle rfl
  refine ⟨w₁, w, _, _, _, m, hbegin, hprepare,
    ((Plays.start.next (.dispatch hdispatch)).next hplayed).next hsettle,
    ⟨by simp [Task.isSettled], rfl⟩, ?_, fun hkeeps => ?_⟩
  · rw [htree]
    exact ⟨_, _, FileTree.leadsTo_of_at? ⟨by decide, by decide⟩ rfl
      (fun _ h => by cases h) (by decide) (by decide), hasNoLink_skeleton (by simp)⟩
  have hkept := hkeeps "config/database.ts" (by decide) _ _ (by
    rw [show Path.parts "config/database.ts" = ["config", "database.ts"] by decide]
    exact hold)
  have hlost := hold.of_write hold (hold.write_eq (Text.Utf8.encode "1"))
  have htree₃ : (((w₂.addMapping "demo" m).settle "demo" none).2).tree = w₂.tree :=
    Workshop.enter_tree _
  rw [conclude_tree, htree₃, htree₂,
    show Path.parts "config/database.ts" = ["config", "database.ts"] by decide] at hkept
  have hsame : Text.Utf8.encode "" = Text.Utf8.encode "1" := Entry.file.inj (hkept.unique hlost).2
  exact absurd (Text.Utf8.encode_injective hsame) (by decide)

/-- A skeleton is not always kept. -/
theorem not_keepsScaffold_database : ¬ ∀ (w₁ w w' : Workshop Unit) (r r' : Run)
    (trials : List Trial), beginRecord "demo" {} .database = (.ok (), w₁) →
    small.prepare "demo" w₁ = (.ok r, w) → Plays small .free r w trials r' w' → r'.IsOver →
    KeepsScaffold "demo" r.output w.tree (conclude "demo" w').2.tree := by
  intro hall
  obtain ⟨w₁, w, w', r, r', m, hbegin, hprepare, hplays, hover, -, hlost⟩ :=
    exists_plays_database
  exact hlost (hall w₁ w w' r r' _ hbegin hprepare hplays hover)

/-- What is lost of the project is the database, to the file that is taken for one. -/
theorem keepsScaffold_iff_database : ∃ (w₁ w w' : Workshop Unit) (r r' : Run)
    (trials : List Trial), small.prepare "demo" w₁ = (.ok r, w) ∧
    Plays small .free r w trials r' w' ∧
    (∃ place e, w.tree.LeadsTo r.output place e ∧ e.HasNoLink) ∧
    ∃ code, IsWrittenOver r.output w.tree w'.tree trials "config/database.ts" code ∧
      ∃ t ∈ trials, ∃ m, t.result = .ok (m, code) ∧ m.target = "config/database.ts" ∧
        IsDatabase (Path.join t.file) := by
  obtain ⟨w₁, w, w', r, r', m, -, hprepare, hplays, -, hplain, hlost⟩ := exists_plays_database
  obtain ⟨hiff, honly⟩ := hplays.keepsScaffold_iff hprepare
  refine ⟨w₁, w, w', r, r', _, hprepare, hplays, hplain, ?_⟩
  by_contra hnone
  refine hlost (hiff.mpr fun name hname code hover => hnone ?_)
  obtain ⟨rfl, hfile⟩ := honly hplain name hname code hover
  exact ⟨code, hover, hfile⟩

end Converter

end PhpMigration
