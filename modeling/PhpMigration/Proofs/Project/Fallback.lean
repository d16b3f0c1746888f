/-
What is lost with the service, and what is not.

If the service never has code to give, nothing is lost but the service: the conversion ends as one
that asks nobody does.  And whatever the service says about a file, it is only for this file.

What a file holds in the end is another matter, since the files are written through whatever links
stand in the output.  Here is a project with a link from the path of one file to that of another,
and a service that replies with a code of its own to each of them: the first file ends up holding
the code of the second, which is neither in the reply to its own prompt nor what its own text is
converted to (`not_holdsOwn_of_link`).
-/
import PhpMigration.Proofs.Project.Schedule
import PhpMigration.Proofs.Project.Service

namespace PhpMigration

variable {σ : Type}

namespace Converter

open Workshop (keeping)

/-! ### What the service keeps -/

variable {c : Converter σ} {project : String} {w w' : Workshop σ} {r : Run}

theorem prepare_keeping (c : Converter σ) (t : σ) (project : String) (w : Workshop σ) :
    c.prepare project (w.keeping t) = (c.prepare project w).map id (keeping t) := by
  unfold prepare
  rw [needFolder_keeping]
  cases needFolder project w with
  | error incident => rfl
  | ok u =>
      dsimp only
      rw [Workshop.update_keeping, laySkeleton_keeping]
      cases c.laySkeleton project (w.update project { step := some (.text "creating_structure") }) with
      | mk result w₁ =>
          cases result with
          | error incident => rfl
          | ok output =>
              dsimp only [Prod.map_apply, id]
              rw [needSources_keeping]
              cases c.needSources project w₁ with
              | error incident => rfl
              | ok files =>
                  show (_, ((w₁.forget project).keeping t).update project _) = _
                  rw [Workshop.update_keeping]
                  rfl

/-- Nobody is asked while a conversion gets ready. -/
theorem service_of_prepare (h : c.prepare project w = (.ok r, w')) : w'.service = w.service := by
  have hsame := prepare_keeping c w.service project w
  rw [show w.keeping w.service = w from rfl, h] at hsame
  exact congrArg (·.2.service) hsame

theorem enter_service (w : Workshop σ) (entry : Ledger → Except Misfit (Record × Ledger)) :
    (w.enter entry).2.service = w.service := by
  unfold Workshop.enter
  split <;> rfl

theorem deliver_service (r : Run) (m : Mapping) (code : String) (w : Workshop σ) :
    (deliver r m code w).2.service = w.service := by
  unfold deliver
  dsimp only
  split <;> rfl

/-! ### Readings, one after another -/

theorem readings_of_act {a : Act} {rest : List Act} {s next : Stage × Workshop σ}
    (h : c.act project a s = some next) : c.readings project (a :: rest) s =
      (c.readingAt a s).toList ++ c.readings project rest next := by
  rw [readings, h]

/-- What is done leads from one state to another, with some readings on the way. -/
structure Leads (c : Converter σ) (project : String) (acts : List Act) (s s' : Stage × Workshop σ)
    (readings : List Reading) : Prop where
  drive : c.drive project acts s = some s'
  readings : c.readings project acts s = readings

section

variable {acts more : List Act} {s s₁ s' : Stage × Workshop σ}
  {first later : List Reading}

theorem Leads.one {a : Act} (h : c.act project a s = some s') :
    c.Leads project [a] s s' (c.readingAt a s).toList where
  drive := by
    unfold Converter.drive
    rw [h]
    rfl
  readings := by
    rw [readings_of_act h]
    exact List.append_nil _

theorem Leads.trans (h : c.Leads project acts s s₁ first) (h' : c.Leads project more s₁ s' later) :
    c.Leads project (acts ++ more) s s' (first ++ later) where
  drive := by rw [drive_append, h.drive, Option.bind_some, h'.drive]
  readings := by
    obtain ⟨hdrive, rfl⟩ := h
    rw [← h'.readings]
    clear h'
    induction acts generalizing s with
    | nil =>
        cases hdrive
        rfl
    | cons a rest ih =>
        obtain ⟨next, hnext, hrest⟩ := Option.bind_eq_some_iff.mp hdrive
        rw [List.cons_append, readings_of_act hnext, readings_of_act hnext, ih hrest,
          List.append_assoc]

end

/-! ### A file that is converted and settled -/

/-- What is done about a chunk of one file that is converted at the first attempt. -/
def actsOfOne : List Act := [.move .dispatch, .move (.attempt 0), .move (.settle 0)]

/-- A chunk is dispatched, and nothing is read for that. -/
theorem leads_dispatch (c : Converter σ) (project : String) {r' : Run}
    (h : dispatch r w = some r') :
    c.Leads project [.move .dispatch] (.moving r, w) (.moving r', w) [] := by
  refine .one ?_
  show ((dispatch r w).map _).map _ = _
  rw [h]
  rfl

/-- The first attempt at the one file of a chunk, whose text can be read, converted and delivered. -/
theorem leads_attempt (project : String) {file : List String} {rest : List (List (List String))}
    {content code : String} {outcome : Outcome String} {s : σ} {m : Mapping} {w₁ : Workshop σ}
    (hread : sourceText w.tree (Workshop.folderOf r.project ++ file) = .ok content)
    (hconvert : c.textConverter.convert content (Path.join file) w = (outcome, w.keeping s))
    (hcode : outcome.result = .ok code)
    (hdeliver : deliver { r with tasks := [⟨file, .waiting 1⟩], queue := rest }
      (.ofFile (Path.join file) content) code (w.keeping s) = (.ok m, w₁)) :
    c.Leads project [.move (.attempt 0)]
      (.moving { r with tasks := [⟨file, .waiting 1⟩], queue := rest }, w)
      (.moving { r with tasks := [⟨file, .converted m⟩], queue := rest }, w₁)
      [⟨file, content, c.textConverter.reply? content w⟩] := by
  have hattempt := attempt_of_convert
    (r := { r with tasks := [⟨file, .waiting 1⟩], queue := rest }) hread hconvert
  rw [hcode] at hattempt
  have hreading := readingAt_attempt (c := c) (n := 1)
    (r := { r with tasks := [⟨file, .waiting 1⟩], queue := rest })
    (List.getElem?_cons_zero ..) hread
  have htry : c.tryFile 0 { r with tasks := [⟨file, .waiting 1⟩], queue := rest } w =
      some ({ r with tasks := [⟨file, .converted m⟩], queue := rest }, w₁) := by
    unfold tryFile
    rw [List.getElem?_cons_zero]
    dsimp only
    rw [hattempt]
    dsimp only
    rw [hdeliver]
    rfl
  have hact : c.act project (.move (.attempt 0))
      (.moving { r with tasks := [⟨file, .waiting 1⟩], queue := rest }, w) =
        some (.moving { r with tasks := [⟨file, .converted m⟩], queue := rest }, w₁) := by
    unfold act step
    dsimp only
    rw [htry]
    rfl
  have hone := Leads.one hact
  rwa [hreading] at hone

/-- A chunk of one file, whose text can be read and converted, and whose path can be written. -/
theorem exists_drive_of_writeFile (project : String) {file : List String}
    {rest : List (List (List String))} {done total : Nat} {failures : List FileFailure}
    {content code : String} {outcome : Outcome String} {s : σ} {t : FileTree}
    (hall : ∀ t ∈ r.tasks, t.isSettled = true) (hqueue : r.queue = [file] :: rest)
    (hrecord : (w.record r.project).IsUnderWay done total failures)
    (hread : sourceText w.tree (Workshop.folderOf r.project ++ file) = .ok content)
    (hconvert : c.textConverter.convert content (Path.join file) w = (outcome, w.keeping s))
    (hcode : outcome.result = .ok code)
    (hwrite : Skeleton.writeFile
      (r.output ++ Path.parts (given r (.ofFile (Path.join file) content) w)) code w.tree =
        (.ok (), t)) :
    ∃ m w', m.source = Path.join file ∧
      m.target = given r (.ofFile (Path.join file) content) w ∧
      c.Leads project actsOfOne (.moving r, w)
        (.moving { r with tasks := [⟨file, .settled⟩], queue := rest }, w')
        [⟨file, content, c.textConverter.reply? content w⟩] ∧
      w'.tree = t ∧ w'.service = s ∧ w'.mappingsOf r.project = w.mappingsOf r.project ++ [m] ∧
      w'.claimsOf r.project = ((w.claimsOf r.project).claim (Path.join file)
        (Mapping.ofFile (Path.join file) content).target).2 ∧
      ∃ done failures, (w'.record r.project).IsUnderWay done total failures := by
  have hdispatch : dispatch r w =
      some { r with tasks := [⟨file, .waiting 1⟩], queue := rest } :=
    dispatch_of_inProgress hall hqueue hrecord.status
  obtain ⟨m, w₁, w', hsource, htarget, hdeliver, rfl, htree, hmappings, hclaims, hrecord'⟩ :=
    exists_settled_of_writeFile c file rest hrecord content code s hwrite
  have hfirst := leads_dispatch c project hdispatch
  have hsecond := leads_attempt project hread hconvert hcode hdeliver
  have hthird : c.Leads project [.move (.settle 0)]
      (.moving { r with tasks := [⟨file, .converted m⟩], queue := rest }, w₁)
      (.moving { r with tasks := [⟨file, .settled⟩], queue := rest },
        ((w₁.addMapping r.project m).settle r.project none).2) [] := .one rfl
  have hservice : w₁.service = s := by
    have hkept := deliver_service { r with tasks := [⟨file, .waiting 1⟩], queue := rest }
      (.ofFile (Path.join file) content) code (w.keeping s)
    exact (congrArg (·.2.service) hdeliver).symm.trans hkept
  exact ⟨m, _, hsource, htarget, (hfirst.trans hsecond).trans hthird, htree,
    (enter_service (w₁.addMapping r.project m) _).trans hservice, hmappings, hclaims, hrecord'⟩

/-- Steps that are none of the moves read nothing. -/
theorem readings_proceed (c : Converter σ) (project : String) (n : Nat) (s : Stage × Workshop σ) :
    c.readings project (List.replicate n .proceed) s = [] := by
  induction n generalizing s with
  | zero => rfl
  | succ n ih =>
      rw [List.replicate_succ, readings]
      cases c.act project .proceed s with
      | none => rfl
      | some next => exact ih next

/-- A conversion whose files are all settled comes to its end. -/
theorem exists_leads_ended {file : List String} {done total : Nat} {failures : List FileFailure}
    (htasks : r.tasks = [⟨file, .settled⟩]) (hqueue : r.queue = [])
    (hrecord : (w.record project).IsUnderWay done total failures) :
    ∃ record w', c.Leads project (List.replicate 2 .proceed) (.moving r, w) (.ended record, w') [] ∧
      w'.tree = w.tree ∧ w'.mappingsOf project = w.mappingsOf project := by
  have hclosing : c.proceed project (.moving r) w = some (.closing, w) := by
    unfold proceed
    dsimp only
    rw [htasks, hqueue, Workshop.isStopped_of_inProgress hrecord.status]
    rfl
  refine ⟨(w.complete project).2.record project, (w.complete project).2,
    ⟨?_, readings_proceed c project 2 _⟩, Workshop.enter_tree _, ?_⟩
  · show (c.proceed project (.moving r) w).bind _ = _
    rw [hclosing]
    rfl
  · unfold Workshop.mappingsOf
    rw [show (w.complete project).2.mappings = w.mappings from Workshop.enter_mappings _]

/-! ### A service that says what it is told to say -/

/-- A service that gives one reply after another, whatever it is asked. -/
def scripted : Service (List String) := fun _ replies => (.ok (replies.headD ""), replies.tail)

/-- A reply without a fence is code as it stands. -/
theorem extract_reply : ∀ reply ∈ ["1", "2", "3"],
    Fence.extract reply = reply ∧ reply.isEmpty = false := by decide

/-- A text is converted to the code in the next reply. -/
theorem exists_convert_scripted {w : Workshop (List String)} {code : String} {more : List String}
    (content fileName : String) (hservice : w.service = code :: more)
    (hcode : Fence.extract code = code) (hne : code.isEmpty = false) :
    ∃ outcome, (smallWith true scripted).textConverter.convert content fileName w =
        (outcome, w.keeping more) ∧ outcome.result = .ok code ∧
      (smallWith true scripted).textConverter.reply? content w = some (.ok code) := by
  have hreply : Workshop.serviceOf scripted (buildPrompt content) w =
      (.ok code, w.keeping more) := by
    unfold Workshop.serviceOf scripted
    rw [hservice]
    rfl
  obtain ⟨t, ht⟩ : ∃ t, t = (smallWith true scripted).textConverter := ⟨_, rfl⟩
  have huse : t.useAi = true := ht ▸ rfl
  have hasked : t.service = some (Workshop.serviceOf scripted) := ht ▸ rfl
  rw [← ht]
  refine ⟨⟨.ok code, doubts fileName code⟩, ?_, rfl, ?_⟩
  · unfold TextConverter.convert
    rw [huse, hasked]
    dsimp only
    rw [hreply]
    unfold TextConverter.afterReply
    dsimp only
    rw [hcode, if_neg (by rw [hne]; decide)]
  · unfold TextConverter.reply?
    rw [huse, hasked]
    dsimp only
    rw [hreply]

/-! ### What is owed -/

/-- **Nothing is lost but the service, and nothing is mixed up.**

A conversion whose service never has code to give takes the same steps as one that asks nobody, from
whatever stage on, and leaves the same workshop behind but for what the service keeps.  And whatever
the service says, each mapping of a conversion leads to what its own reading yields, if there is no
link in the output. -/
theorem drive_eq_withoutService (settings : Settings) (parser : SourceParser) (service : Service σ)
    (project : String) (w : Workshop σ) (acts : List Act) :
    (∀ stage t, (∀ reading ∈ (ofService (settings.withAi true) parser service).readings project acts
        (stage, w), reading.IsLost) →
      (ofService (settings.withAi false) parser service).drive project acts (stage, w.keeping t) =
        ((ofService (settings.withAi true) parser service).drive project acts (stage, w)).map
          (Prod.map id (keeping t))) ∧
    ∀ stage w', (ofService settings parser service).drive project acts (.begun, w) =
        some (stage, w') →
      stage.IsConverting → w.tree.top.IsSound →
      (ofService settings parser service).LaysPlain project w →
      (ofService settings parser service).HoldsOwn project acts w w' :=
  ⟨fun _ t hlost => drive_withAi t project acts _ hlost,
    fun _ _ hdrive hstage hsound hplain => holdsOwn_of_drive hdrive hstage hsound hplain⟩

/-- A small project is ready for its moves, and nobody has been asked. -/
structure IsReady (names : List String) (utilities : List (String × Entry)) (replies : List String)
    (w₁ w : Workshop (List String)) : Prop where
  begun : beginRecord "demo" {} { tree := .small names utilities, service := replies } = (.ok (), w₁)
  tree₁ : w₁.tree = .small names utilities
  leads : (smallWith true scripted).Leads "demo" (List.replicate 4 .proceed) (.begun, w₁)
    (.moving ⟨"demo", ["demo", "converted"], [], chunksOf 1 (names.map fun n => [n])⟩, w) []
  tree : w.tree = .small names utilities
  laid : ((smallWith true scripted).laidOut "demo" w₁).tree = .small names utilities
  service : w.service = replies
  claims : w.claimsOf "demo" = []
  record : ∃ total, (w.record "demo").IsUnderWay 0 total []

theorem exists_isReady {names : List String} (utilities : List (String × Entry))
    (replies : List String) (hsorted : names.Pairwise fun a b => a ≤ b)
    (hsuffix : ∀ name ∈ names, Discovery.hasSuffix [".php"] name = true) (hne : names ≠ []) :
    ∃ w₁ w, IsReady names utilities replies w₁ w := by
  obtain ⟨w₁, w, hbegin, hprepare, htree⟩ :=
    exists_prepareWith_begun utilities true scripted replies hsorted hsuffix hne
  obtain ⟨htree₁, hfresh⟩ := tree_and_record_of_begin hbegin
  obtain ⟨files, -, -, -, -, -, -, hlaid, -, hclaims, hrecord⟩ := prepare_ok hfresh hprepare
  exact ⟨w₁, w,
    { begun := hbegin
      tree₁ := htree₁
      leads := ⟨drive_of_prepare hprepare, readings_proceed _ "demo" 4 _⟩
      tree := htree
      laid := hlaid.symm.trans htree
      service := (service_of_prepare hprepare).trans (congrArg (·.2.service) hbegin).symm
      claims := hclaims
      record := ⟨_, hrecord⟩ }⟩

/-- An empty source of a small project is read. -/
theorem sourceText_small {t : FileTree} {name : String}
    (h : t.LeadsTo ["demo", name] ["demo", name] (.file ByteArray.empty)) :
    sourceText t (Workshop.folderOf "demo" ++ [name]) = .ok "" := by
  rw [show Workshop.folderOf "demo" = ["demo"] by decide]
  exact sourceText_of_empty h

theorem sorted_one : ["a.php"].Pairwise fun a b => a ≤ b := List.pairwise_singleton _ _

/-- The only file of a small project is there. -/
theorem leadsTo_one (utilities : List (String × Entry)) :
    (FileTree.small ["a.php"] utilities).LeadsTo ["demo", "a.php"] ["demo", "a.php"]
      (.file ByteArray.empty) :=
  leadsTo_small rfl (fun _ h => by cases h) (by decide) (by decide)

/-- A way to the first attempt at the only file of a small project. -/
theorem exists_leads_attempt (utilities : List (String × Entry)) (replies : List String) :
    ∃ w₁ w s, w.service = replies ∧
      (smallWith true scripted).Leads "demo"
        (List.replicate 4 .proceed ++ [.move .dispatch] ++ [.move (.attempt 0)]) (.begun, w₁) s
        [⟨["a.php"], "", (smallWith true scripted).textConverter.reply? "" w⟩] := by
  obtain ⟨w₁, w, h⟩ := exists_isReady utilities replies sorted_one (by decide)
    (List.cons_ne_nil _ _)
  obtain ⟨total, hrecord⟩ := h.record
  have hready := h.leads
  rw [show chunksOf 1 (["a.php"].map fun n => [n]) = [[["a.php"]]] from chunksOf_one _] at hready
  obtain ⟨c, hc⟩ : ∃ c, c = smallWith true scripted := ⟨_, rfl⟩
  rw [← hc] at hready ⊢
  have hdispatch : dispatch ⟨"demo", ["demo", "converted"], [], [[["a.php"]]]⟩ w =
      some ⟨"demo", ["demo", "converted"], [⟨["a.php"], .waiting 1⟩], []⟩ :=
    dispatch_of_inProgress (r := ⟨"demo", ["demo", "converted"], [], [[["a.php"]]]⟩) (by simp) rfl
      hrecord.status
  obtain ⟨s, hs⟩ : ∃ s, c.act "demo" (.move (.attempt 0))
      (.moving ⟨"demo", ["demo", "converted"], [⟨["a.php"], .waiting 1⟩], []⟩, w) = some s := by
    unfold act step tryFile
    dsimp only
    rw [List.getElem?_cons_zero]
    dsimp only
    cases c.attempt _ ["a.php"] w with
    | mk result w' => cases result <;> exact ⟨_, rfl⟩
  have hreading := readingAt_attempt (c := c) (n := 1)
    (r := ⟨"demo", ["demo", "converted"], [⟨["a.php"], .waiting 1⟩], []⟩)
    (List.getElem?_cons_zero ..) (sourceText_small (h.tree ▸ leadsTo_one utilities))
  have hall := (hready.trans (leads_dispatch c "demo" hdispatch)).trans (.one hs)
  rw [hreading] at hall
  exact ⟨w₁, w, s, h.service, hall⟩

/-- A service without a reply is lost, and what a reply says is held. -/
theorem drive_eq_withoutService_small :
    (∃ (w : Workshop (List String)) (acts : List Act) (s : Stage × Workshop (List String)),
      (smallWith true scripted).readings "demo" acts (.begun, w) ≠ [] ∧
      (smallWith true scripted).drive "demo" acts (.begun, w) = some s ∧
      (smallWith false scripted).drive "demo" acts (.begun, w.keeping w.service) =
        some (s.1, s.2.keeping w.service)) ∧
    ∃ (w w' : Workshop (List String)) (acts : List Act) (record : Record),
      (smallWith true scripted).drive "demo" acts (.begun, w) = some (.ended record, w') ∧
      w'.mappingsOf "demo" ≠ [] ∧ (smallWith true scripted).HoldsOwn "demo" acts w w' := by
  constructor
  · obtain ⟨w₁, w, s, hservice, hleads⟩ := exists_leads_attempt [] []
    have hreply : (smallWith true scripted).textConverter.reply? "" w = some (.ok "") := by
      show some (Workshop.serviceOf scripted (buildPrompt "") w).1 = _
      unfold Workshop.serviceOf scripted
      rw [hservice]
      rfl
    refine ⟨w₁, _, s, ?_, hleads.drive, ?_⟩
    · rw [hleads.readings]
      exact List.cons_ne_nil _ _
    · refine ((drive_eq_withoutService .small _ scripted "demo" w₁ _).1 .begun w₁.service ?_).trans
        ((congrArg (Option.map _) hleads.drive).trans rfl)
      intro reading hreading
      obtain rfl := List.mem_singleton.mp (hleads.readings ▸ hreading)
      rw [hreply]
      show Fence.extract "" = ""
      decide
  · obtain ⟨w₁, w, h⟩ := exists_isReady [("a.ts", .file ByteArray.empty)] ["1"] sorted_one
      (by decide) (List.cons_ne_nil _ _)
    obtain ⟨total, hrecord⟩ := h.record
    have hready := h.leads
    rw [show chunksOf 1 (["a.php"].map fun n => [n]) = [[["a.php"]]] from chunksOf_one _] at hready
    obtain ⟨outcome, hconvert, hresult, -⟩ := exists_convert_scripted "" (Path.join ["a.php"])
      h.service (extract_reply "1" (by decide)).1 (by decide)
    have hgiven : ((w.claimsOf "demo").claim (Path.join ["a.php"])
        (Mapping.ofFile (Path.join ["a.php"]) "").target).1 = "utils/a.ts" := by
      rw [h.claims]
      decide
    have hfile : (FileTree.small ["a.php"] [("a.ts", .file ByteArray.empty)]).LeadsTo
        ["demo", "converted", "utils", "a.ts"] ["demo", "converted", "utils", "a.ts"]
        (.file ByteArray.empty) :=
      leadsTo_small rfl (fun _ h => by cases h) (by decide) (by decide)
    have hfolder : ∃ entries, (FileTree.small ["a.php"] [("a.ts", .file ByteArray.empty)]).LeadsTo
        ["demo", "converted", "utils"] ["demo", "converted", "utils"] (.folder entries) :=
      ⟨_, leadsTo_small rfl (fun _ h => by cases h) (by decide) (by decide)⟩
    obtain ⟨entries, hfolder⟩ := hfolder
    have hwrite := writeFile_of_leadsTo hfile hfolder.isFolder_eq "1"
    obtain ⟨m, w₂, -, -, hleads, -, -, hmappings, -, _, _, hrecord₂⟩ := exists_drive_of_writeFile
      (r := ⟨"demo", ["demo", "converted"], [], _⟩) "demo" (by simp) rfl hrecord
      (sourceText_small (h.tree ▸ leadsTo_one _)) hconvert hresult (by
        unfold given
        rw [show Mapping.source _ = Path.join ["a.php"] from rfl, hgiven,
          show Path.parts "utils/a.ts" = ["utils", "a.ts"] by decide, h.tree]
        exact hwrite)
    obtain ⟨record, w₃, hends, -, hsame⟩ := exists_leads_ended (c := smallWith true scripted)
      (r := ⟨"demo", ["demo", "converted"], [⟨["a.php"], .settled⟩], []⟩) rfl rfl hrecord₂
    have hall := (hready.trans hleads).trans hends
    refine ⟨w₁, w₃, _, record, hall.drive, ?_, (drive_eq_withoutService (Settings.small.withAi true)
      _ scripted "demo" w₁ _).2 _ w₃ hall.drive trivial ?_ fun output houtput => ?_⟩
    · rw [hsame, hmappings]
      simp
    · rw [h.tree₁]
      simp only [FileTree.small, Entry.skeleton, Entry.IsSound, EachSound, List.map, Table.names]
      decide
    · obtain rfl : ["demo", "converted"] = output :=
        (by decide : ["demo", "converted"] = _).trans (Except.ok.inj houtput)
      refine ⟨["demo", "converted"], .skeleton [("a.ts", .file ByteArray.empty)], ?_,
        hasNoLink_skeleton (by simp [Entry.hasNoLink_file])⟩
      show ((smallWith true scripted).laidOut "demo" w₁).tree.LeadsTo _ _ _
      rw [h.laid]
      exact leadsTo_small rfl (fun _ h => by cases h) (by decide) (by decide)

/-! ### A link in the output -/

theorem isSound_linked : (FileTree.small ["a.php", "b.php"] linkedUtilities).top.IsSound := by
  simp only [FileTree.small, Entry.skeleton, linkedUtilities, Entry.IsSound, EachSound, List.map,
    Table.names]
  decide

/-- With two replies, the second one is in the end where the path of the first file leads. -/
theorem exists_drive_linked {k : String} (hextract : Fence.extract k = k)
    (hgiven : k.isEmpty = false) :
    ∃ (w₁ w' : Workshop (List String)) (acts : List Act) (record : Record) (m : Mapping),
      beginRecord "demo" {}
        { tree := .small ["a.php", "b.php"] linkedUtilities, service := ["1", k] } = (.ok (), w₁) ∧
      w₁.tree.top.IsSound ∧
      (smallWith true scripted).Leads "demo" acts (.begun, w₁) (.ended record, w')
        [⟨["a.php"], "", some (.ok "1")⟩, ⟨["b.php"], "", some (.ok k)⟩] ∧
      m ∈ w'.mappingsOf "demo" ∧ m.source = "a.php" ∧ m.target = "utils/a.ts" ∧
      w'.tree.LeadsTo ["demo", "converted", "utils", "a.ts"] ["demo", "converted", "utils", "b.ts"]
        (.file (Text.Utf8.encode k)) := by
  obtain ⟨c, hc⟩ : ∃ c, c = smallWith true scripted := ⟨_, rfl⟩
  obtain ⟨w₁, w, h⟩ := exists_isReady linkedUtilities ["1", k] sorted_pair (by decide)
    (List.cons_ne_nil _ _)
  obtain ⟨total, hrecord⟩ := h.record
  have hready := h.leads
  rw [show chunksOf 1 (["a.php", "b.php"].map fun n => [n]) = [[["a.php"]], [["b.php"]]] from
    chunksOf_one _, ← hc] at hready
  obtain ⟨hlink, hfile, hfolder⟩ := leadsTo_linked
  have hpair := leadsTo_pair linkedUtilities
  rw [← h.tree] at hlink hfile hfolder hpair
  obtain ⟨t₁, t₂, hfirst, hsecond, hlast⟩ :=
    exists_writeFile_of_leadsTo hlink hfile hfolder hfolder "1" k
  have hread₁ := sourceText_small
    (leadsTo_of_writeFile hlink (hpair "b.php" (by decide)) (by decide) hfirst)
  have hparts : Path.parts "utils/a.ts" = ["utils", "a.ts"] ∧
      Path.parts "utils/b.ts" = ["utils", "b.ts"] := by decide
  have hclaim₁ : (w.claimsOf "demo").claim (Path.join ["a.php"])
      (Mapping.ofFile (Path.join ["a.php"]) "").target =
        ("utils/a.ts", [("utils/a.ts", "a.php")]) := by
    rw [h.claims]
    decide
  obtain ⟨outcome₁, hconvert₁, hresult₁, hreply₁⟩ := exists_convert_scripted "" (Path.join ["a.php"])
    h.service (extract_reply "1" (by decide)).1 (by decide)
  rw [← hc] at hconvert₁ hreply₁
  obtain ⟨m, w₂, hsource, htarget, hleads₁, htree₂, hservice₂, hmappings₂, hclaims₂, _, _,
      hrecord₂⟩ :=
    exists_drive_of_writeFile (r := ⟨"demo", ["demo", "converted"], [], _⟩) "demo"
      (by simp) rfl hrecord (sourceText_small (hpair "a.php" (by decide))) hconvert₁
      hresult₁ (t := t₁) (by
        unfold given
        rw [show Mapping.source _ = Path.join ["a.php"] from rfl, hclaim₁, hparts.1]
        exact hfirst)
  have hclaim₂ : ((w₂.claimsOf "demo").claim (Path.join ["b.php"])
      (Mapping.ofFile (Path.join ["b.php"]) "").target).1 = "utils/b.ts" := by
    rw [hclaims₂, hclaim₁]
    decide
  obtain ⟨outcome₂, hconvert₂, hresult₂, hreply₂⟩ := exists_convert_scripted "" (Path.join ["b.php"])
    hservice₂ hextract hgiven
  rw [← hc] at hconvert₂ hreply₂
  obtain ⟨_, w₃, -, -, hleads₂, htree₃, -, hmappings₃, -, _, _, hrecord₃⟩ :=
    exists_drive_of_writeFile
      (r := ⟨"demo", ["demo", "converted"], [⟨["a.php"], .settled⟩], [[["b.php"]]]⟩)
      "demo" (by simp [Task.isSettled]) rfl hrecord₂
      (by rw [htree₂]; exact hread₁) hconvert₂ hresult₂ (t := t₂) (by
        unfold given
        rw [show Mapping.source _ = Path.join ["b.php"] from rfl, hclaim₂, hparts.2, htree₂]
        exact hsecond)
  obtain ⟨record, w₄, hleads₃, htree₄, hmappings₄⟩ := exists_leads_ended
    (r := ⟨"demo", ["demo", "converted"], [⟨["b.php"], .settled⟩], []⟩) (c := c) rfl rfl hrecord₃
  have hall := ((hready.trans hleads₁).trans hleads₂).trans hleads₃
  rw [hreply₁, hreply₂] at hall
  refine ⟨w₁, w₄, _, record, m, h.begun, h.tree₁ ▸ isSound_linked, hc ▸ hall, ?_,
    hsource.trans (by decide), htarget.trans (congrArg Prod.fst hclaim₁), ?_⟩
  · rw [hmappings₄, hmappings₃, hmappings₂]
    simp
  · rw [htree₄, htree₃]
    exact hlast

/-- What is held for the first file is said to the second. -/
theorem not_holdsOwn_of_link : ∃ (replies : List String) (w₁ w' : Workshop (List String))
    (acts : List Act) (record : Record),
    beginRecord "demo" {} { tree := .small ["a.php", "b.php"] linkedUtilities, service := replies } =
      (.ok (), w₁) ∧
    w₁.tree.top.IsSound ∧
    (smallWith true scripted).drive "demo" acts (.begun, w₁) = some (.ended record, w') ∧
    ¬ (smallWith true scripted).HoldsOwn "demo" acts w₁ w' := by
  -- the second reply is neither the first one nor what the first file is converted to locally
  obtain ⟨k, hk, hlocal⟩ : ∃ k ∈ ["2", "3"],
      (smallWith true scripted).textConverter.convertLocally "" "a.php" ≠ .ok k := by
    by_cases h : (smallWith true scripted).textConverter.convertLocally "" "a.php" = .ok "2"
    · exact ⟨"3", by decide, fun h' => absurd (Except.ok.inj (h.symm.trans h')) (by decide)⟩
    · exact ⟨"2", by decide, h⟩
  obtain ⟨hextract, hgiven⟩ := extract_reply k (List.mem_cons_of_mem _ hk)
  obtain ⟨w₁, w', acts, record, m, hbegin, hsound, hleads, hmem, hname, htarget, hlast⟩ :=
    exists_drive_linked hextract hgiven
  refine ⟨["1", k], w₁, w', acts, record, hbegin, hsound, hleads.drive, fun hholds => ?_⟩
  obtain ⟨reading, hreading, output, code, place, hsource, hyields, houtput, hheld⟩ := hholds m hmem
  have hown : reading = ⟨["a.php"], "", some (.ok "1")⟩ := by
    rw [hleads.readings] at hreading
    simp only [List.mem_cons, List.not_mem_nil, or_false] at hreading
    rcases hreading with rfl | rfl
    · rfl
    · exact absurd (show "a.php" = Path.join ["b.php"] from hname.symm.trans hsource) (by decide)
  subst hown
  have hout : output = ["demo", "converted"] := (Except.ok.inj houtput).symm.trans (by decide)
  rw [hout, htarget, show Path.parts "utils/a.ts" = ["utils", "a.ts"] by decide] at hheld
  have hsame : code = k :=
    Text.Utf8.encode_injective (Entry.file.inj (hheld.unique hlast).2)
  subst hsame
  rcases hyields with ⟨reply, hreply, hextracted, -⟩ | hconverted
  · cases hreply
    rw [(extract_reply "1" (by decide)).1] at hextracted
    subst hextracted
    exact absurd hk (by decide)
  · exact hlocal hconverted

end Converter

end PhpMigration
