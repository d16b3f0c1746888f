/-
Which requests that bring a document are answered as they should be.

A document is brought to begin the conversion of a project, to have a project analysed, and to have
a single text converted.  It may be any document.  One that does not say what is asked for is to be
refused before anything is changed, and no request is to be met with an error of the service.

Both hold as long as the document is an object whose project is a text, counts as not given, or
holds a separator by itself: other documents are not made out (`projectOf_cases`).  Beyond that, the
name of the project must not be too long to be asked for, and a single text must be one for which
the conversion has no gap.  All else that can fail then has an answer of its own, and these are
found by going through the conversion, the analysis and the snippet one after another.

How a request comes to a resource, and how a document is read from it, is left to the framework.
-/
import PhpMigration.Http.Surface
import PhpMigration.Proofs.Conversion.Local
import PhpMigration.Proofs.Project.Review
import PhpMigration.Proofs.Project.Service
import PhpMigration.Proofs.Text.Blank
import PhpMigration.Proofs.Text.Search

namespace PhpMigration

/-! ### Single texts -/

/-- The parser reads or reports, and builds trees of the grammar. -/
structure SourceParser.IsSound (parser : SourceParser) : Prop where
  statements : ∀ code nodes, parser code = .ok nodes → ∀ n ∈ nodes, Php.IsStatement n
  reports : ∀ code name text, parser code ≠ .error (.interruption name text)

namespace TextConverter

variable {σ : Type} {t : TextConverter σ} {code fileName : String} {s : σ}
  {nodes : List Php.Node}

/-- What the service says to a text leaves no gap: there is code in it, or nothing that is not
known, and then the text must have a code here. -/
def IsCovered (nodes : List Php.Node) : Option (Except Incident String) → Prop
  | some (.ok reply) => Fence.extract reply ≠ "" ∨ Php.HasCode nodes
  | some (.error incident) => (∃ f, incident = .failure f) ∧ Php.HasCode nodes
  | none => Php.HasCode nodes

/-- The conversion has no gap for a text, if the text begins with a tag and is parsed at all. -/
def CanConvert (t : TextConverter σ) (code : String) (s : σ) : Prop :=
  openTag.toList.isPrefixOf code.toList = true → ∀ nodes, t.parser code = .ok nodes →
    IsCovered nodes (t.reply? code s)

theorem convert_of_reply {reply : Except Incident String} (h : t.reply? code s = some reply) :
    (t.convert code fileName s).1 = t.afterReply code fileName reply := by
  cases huse : t.useAi with
  | false => simp [reply?, huse] at h
  | true =>
      cases hservice : t.service with
      | none => simp [reply?, hservice] at h
      | some service =>
          simp only [reply?, huse, hservice, Option.some.injEq] at h
          simp only [convert, huse, hservice, h]

/-- A text that has been parsed is converted here if it has a code, and what is wrong with it
otherwise is no failure of a known kind. -/
theorem convertLocally_cases (fileName : String) (ht : t.parser.IsSound)
    (hnodes : t.parser code = .ok nodes) :
    Php.HasCode nodes ∧ (∃ converted, t.convertLocally code fileName = .ok converted) ∨
      ¬ Php.HasCode nodes ∧ ∃ incident, t.convertLocally code fileName = .error incident ∧
        incident.failure? = none := by
  obtain ⟨program, hprogram, hcode⟩ := codeOf_programToCore (ht.statements code nodes hnodes)
  rw [convertLocally_of_programToCore fileName hnodes hprogram]
  by_cases hconvertible : Php.eachConvertible nodes = true
  · rw [if_pos hconvertible] at hcode
    by_cases hwritable : Php.IsWritable nodes
    · exact .inl ⟨⟨hconvertible, hwritable⟩, hcode.1 hwritable⟩
    · exact .inr ⟨fun h => hwritable h.writable, _, hcode.2 hwritable, rfl⟩
  · rw [if_neg hconvertible] at hcode
    obtain ⟨fault, hfault⟩ := hcode
    exact .inr ⟨fun h => hconvertible h.convertible, _, hfault, rfl⟩

/-- A text that has been parsed is converted if no gap is left, and what is wrong with it otherwise
is no failure of a known kind. -/
theorem convert_result_cases (fileName : String) (s : σ) (ht : t.parser.IsSound)
    (hnodes : t.parser code = .ok nodes) :
    IsCovered nodes (t.reply? code s) ∧
        (∃ converted, (t.convert code fileName s).1.result = .ok converted) ∨
      ¬ IsCovered nodes (t.reply? code s) ∧
        ∃ incident, (t.convert code fileName s).1.result = .error incident ∧
          incident.failure? = none := by
  -- Where the service gives nothing, it is left to the local conversion.
  have hlocal (hlost : Reading.IsLost ⟨[], code, t.reply? code s⟩) :
      Php.HasCode nodes ∧
          (∃ converted, (t.convert code fileName s).1.result = .ok converted) ∨
        ¬ Php.HasCode nodes ∧
          ∃ incident, (t.convert code fileName s).1.result = .error incident ∧
            incident.failure? = none := by
    rw [convert_result_of_isLost fileName hlost]
    exact convertLocally_cases fileName ht hnodes
  cases hreply : t.reply? code s with
  | none =>
      rw [hreply] at hlocal
      exact hlocal trivial
  | some reply =>
      rw [hreply] at hlocal
      cases reply with
      | ok reply =>
          by_cases hextract : Fence.extract reply = ""
          · refine (hlocal hextract).imp (And.imp_left .inr) (And.imp_left fun hno => ?_)
            exact fun hcovered => hno (hcovered.resolve_left (not_not_intro hextract))
          · have hne : (Fence.extract reply).isEmpty = false := by simpa using hextract
            refine .inl ⟨.inl hextract, Fence.extract reply, ?_⟩
            rw [convert_of_reply hreply]
            simp only [afterReply, hne, Bool.false_eq_true, if_false]
      | error incident =>
          cases hfailure : incident.failure? with
          | some f =>
              obtain rfl : incident = .failure f := by
                cases incident <;> cases hfailure
                rfl
              exact (hlocal ⟨f, rfl⟩).imp (And.imp_left fun hyes => ⟨⟨f, rfl⟩, hyes⟩)
                (And.imp_left fun hno hcovered => hno hcovered.2)
          | none =>
              refine .inr ⟨?_, incident, ?_, hfailure⟩
              · rintro ⟨⟨f, rfl⟩, -⟩
                cases hfailure
              · rw [convert_of_reply hreply]
                cases incident with
                | failure f => cases hfailure
                | _ => rfl

theorem snippetOutcome_of_failure?_none {name : Value} {o : Outcome String} {incident : Incident}
    (h : o.result = .error incident) (hfailure : incident.failure? = none) :
    (snippetOutcome name o).result = .error incident := by
  unfold snippetOutcome
  rw [h]
  dsimp only
  rw [hfailure]

/-- **A snippet has a result exactly if the conversion has no gap for it.** -/
theorem convertSnippet_cases (ht : t.parser.IsSound) (code : String) (name : Value) (s : σ) :
    t.CanConvert (Text.strip (withoutMarks code)) s ∧
        (∃ r, (t.convertSnippet code name s).1.result = .ok r) ∨
      ¬ t.CanConvert (Text.strip (withoutMarks code)) s ∧
        ∃ incident, (t.convertSnippet code name s).1.result = .error incident := by
  unfold convertSnippet CanConvert
  dsimp only
  generalize Text.strip (withoutMarks code) = clean
  cases htag : openTag.toList.isPrefixOf clean.toList with
  | false => exact .inl ⟨nofun, _, rfl⟩
  | true =>
      simp only [Bool.not_true, Bool.false_eq_true, if_false, true_imp_iff]
      cases hparser : t.parser clean with
      | error stop =>
          cases stop with
          | report r =>
              refine .inl ⟨fun _ h => (nomatch h), ?_⟩
              have hread : t.read clean (fileNameOf name) =
                  .error (.failure (.parse r.message (fileNameOf name) r.line)) := by
                unfold read
                rw [hparser]
              rw [hread]
              exact ⟨_, rfl⟩
          | interruption n text => exact absurd hparser (ht.reports clean n text)
      | ok nodes =>
          obtain ⟨program, hprogram, -⟩ := codeOf_programToCore (ht.statements clean nodes hparser)
          have hread : t.read clean (fileNameOf name) = .ok program := by
            unfold read
            rw [hparser]
            dsimp only
            rw [hprogram]
            rfl
          rw [hread]
          dsimp only
          rcases convert_result_cases (fileNameOf name) s ht hparser with
            ⟨hcovered, converted, hok⟩ | ⟨hnot, incident, herror, hfailure⟩
          · refine .inl ⟨?_, ⟨name, true, converted⟩, ?_⟩
            · intro nodes' h
              cases h
              exact hcovered
            · unfold snippetOutcome
              rw [hok]
          · exact .inr ⟨fun h => hnot (h nodes rfl), incident,
              snippetOutcome_of_failure?_none herror hfailure⟩

end TextConverter

namespace Http

/-! ### What is asked for, and what is owed -/

/-- The text is the name of a single folder. -/
structure IsFolderName (name : String) : Prop where
  nonempty : name ≠ ""
  /-- The folder itself and the one above have no names of their own. -/
  noDots : name ≠ "." ∧ name ≠ ".."
  single : '/' ∉ name.toList ∧ '\\' ∉ name.toList

/-- The resource is given a document. -/
def Resource.takesDocument : Resource → Bool
  | .conversion | .analysis | .snippet => true
  | _ => false

/-- The document does not say what the resource is asked for: it holds no text to be converted, or
does not name a project by the name of a single folder. -/
def IsMalformed (document : Value) : Resource → Prop
  | .snippet => ∀ code, document.member "code" = .text code → Text.isBlankText code = true
  | _ => ∀ name, document.member "projectId" = .text name → ¬ IsFolderName name

/-- The statuses that requests are to be answered with. -/
def foreseen : List Nat := [200, 400, 404, 409]

/-- **What is owed to a request** for a resource that is given a document, in a workshop. -/
structure IsOwed {σ : Type} (document : Value) (resource : Resource) (w : Workshop σ)
    (answer : Reply × Workshop σ) : Prop where
  /-- It is not answered with an error of the service. -/
  foreseen : answer.1.status ∈ foreseen
  /-- A document that does not say what is asked for is refused, and nothing is changed. -/
  refused : IsMalformed document resource → answer.1.status = 400 ∧ answer.2 = w

/-- The document is one that the service makes out. -/
structure IsMadeOut (document : Value) (resource : Resource) : Prop where
  object : ∃ members, document = .object members
  /-- What stands for the project is a text, counts as not given, or holds a separator. -/
  project : resource ≠ .snippet → (document.member "projectId").text?.isSome = true ∨
    (document.member "projectId").isGiven = false ∨
    holdsSeparator (document.member "projectId") = true

namespace Surface

variable {σ : Type}

/-- The service can answer the request. -/
structure CanAnswer (s : Surface σ) (document : Value) (resource : Resource) (w : Workshop σ) :
    Prop where
  madeOut : IsMadeOut document resource
  /-- The folder of a project can be asked for. -/
  folder : resource ≠ .snippet → ∀ name, document.member "projectId" = .text name →
    isProjectName name = true → ∃ there, w.hasFolder name = .ok there
  /-- The conversion has no gap for a single text. -/
  code : resource = .snippet → ∀ code, document.member "code" = .text code →
    Text.isBlankText code = false →
    s.converter.textConverter.CanConvert (Text.strip (withoutMarks code)) w

/-- The service is set up, and what it finds in the workshop is of use. -/
structure IsUsable (s : Surface σ) (w : Workshop σ) : Prop where
  suffixes : ∃ names, s.converter.settings.suffixes = .ok names
  skipped : ∃ names, s.converter.settings.skipped = .ok names
  parser : s.converter.textConverter.parser.IsSound
  /-- Of every record it can be said whether its conversion has come to an end. -/
  records : ∀ project r, Table.find? w.ledger project = some r →
    ∃ ended, r.status.isTerminal = .ok ended
  /-- The list of packages that a project needs can be asked for. -/
  packages : ∀ project, isProjectName project = true → w.hasFolder project = .ok true →
    ∃ there, w.tree.leadsToFile (Workshop.folderOf project ++ ["composer.json"]) = .ok there

end Surface

/-! ### Names -/

theorem contains_of_mem {text mark : String} {c : Char} (hmark : mark.toList = [c])
    (h : c ∈ text.toList) : Text.contains text mark = true := by
  rw [Text.contains_iff, hmark]
  obtain ⟨front, back, hsplit⟩ := List.append_of_mem h
  exact ⟨front, back, by simp [hsplit]⟩

/-- A name that is accepted is that of a single folder. -/
theorem isFolderName_of_isProjectName {name : String} (h : isProjectName name = true) :
    IsFolderName name := by
  unfold isProjectName at h
  simp only [Bool.and_eq_true, Bool.not_eq_true', List.any_eq_false, noNames, separators] at h
  obtain ⟨⟨hempty, hno⟩, hseparators⟩ := h
  have hnames : name ∉ ["undefined", ".", ".."] := by simpa using hno
  simp only [List.mem_cons, not_or] at hnames
  refine ⟨by simpa using hempty, ⟨hnames.2.1, hnames.2.2.1⟩, fun hmem => ?_, fun hmem => ?_⟩
  · exact hseparators "/" (by simp) (contains_of_mem (by decide) hmem)
  · exact hseparators "\\" (by simp) (contains_of_mem (by decide) hmem)

/-- A document is accepted with the name of its project, or refused if it is made out, or else
taken for an error of the service. -/
theorem projectOf_cases (document : Value) {resource : Resource} (hresource : resource ≠ .snippet) :
    (∃ name, document.member "projectId" = .text name ∧ isProjectName name = true ∧
      projectOf document = .ok name ∧ IsMadeOut document resource) ∨
    (∃ message, (∀ name, document.member "projectId" = .text name →
        isProjectName name = false) ∧
      projectOf document = .error (.error 400 message) ∧ IsMadeOut document resource) ∨
    projectOf document = .error .broken ∧ ¬ IsMadeOut document resource ∧
      ∀ name, document.member "projectId" ≠ .text name := by
  cases document with
  | object members =>
      have hmember : (Value.object members).member "projectId" =
          (Table.find? members "projectId").getD .null := rfl
      have hmadeOut : IsMadeOut (.object members) resource ↔
          ((Value.object members).member "projectId").text?.isSome = true ∨
          ((Value.object members).member "projectId").isGiven = false ∨
          holdsSeparator ((Value.object members).member "projectId") = true :=
        ⟨fun h => h.project hresource, fun h => ⟨⟨members, rfl⟩, fun _ => h⟩⟩
      rw [hmadeOut]
      unfold projectOf
      dsimp only
      rw [hmember]
      generalize (Table.find? members "projectId").getD .null = v
      cases v with
      | text name =>
          dsimp only
          cases hempty : name.isEmpty with
          | true =>
              refine .inr (.inl ⟨_, fun name' h => ?_, rfl, .inl rfl⟩)
              cases h
              simp [isProjectName, hempty]
          | false =>
              cases hname : isProjectName name with
              | true => exact .inl ⟨name, rfl, hname, rfl, .inl rfl⟩
              | false =>
                  refine .inr (.inl ⟨_, fun name' h => ?_, rfl, .inl rfl⟩)
                  cases h
                  exact hname
      | _ =>
          dsimp only
          split
          · rename_i hgiven
            refine .inr (.inl ⟨_, fun name h => ?_, rfl, .inr (.inl (by simpa using hgiven))⟩)
            cases h
          · rename_i hgiven
            split
            · rename_i hholds
              refine .inr (.inl ⟨_, fun name h => ?_, rfl, .inr (.inr hholds)⟩)
              cases h
            · rename_i hholds
              refine .inr (.inr ⟨rfl, ?_, fun name h => ?_⟩)
              · rintro (h | h | h)
                · cases h
                · exact hgiven (by simp [h])
                · exact hholds h
              · cases h
  | _ =>
      refine .inr (.inr ⟨rfl, fun h => ?_, fun name h => ?_⟩)
      · obtain ⟨members, hmembers⟩ := h.object
        cases hmembers
      · cases h

/-! ### Projects -/

theorem Reply.ofResult_failure {α : Type} {onFailure : Failure → Reply} {onResult : α → Reply}
    {f : Failure} (h : f.kind.lineage.contains .project = true) :
    Reply.ofResult onFailure onResult (.error (.failure f)) = onFailure f := by
  unfold Reply.ofResult
  dsimp only
  rw [if_pos h]

namespace Surface

variable {σ : Type} {s : Surface σ} {w : Workshop σ} {project : String} {document : Value}

/-- The sources of a project can be looked for. -/
theorem IsUsable.exists_sources (h : s.IsUsable w) (project : String) :
    ∃ files, s.converter.sources project w = .ok files := by
  obtain ⟨suffixes, hsuffixes⟩ := h.suffixes
  obtain ⟨skipped, hskipped⟩ := h.skipped
  unfold Converter.sources Discovery.sources
  rw [hsuffixes, hskipped]
  exact ⟨_, rfl⟩

/-- A record is begun, or one is under way. -/
theorem IsUsable.beginRecord_cases (h : s.IsUsable w) (project : String) (count : Nat) :
    (∃ w', Converter.beginRecord project { total := some (.int count) } w = (.ok (), w')) ∨
      Converter.beginRecord project { total := some (.int count) } w =
        (.error (.failure (Converter.underWay project)), w) := by
  obtain ⟨free, hfree⟩ : ∃ free, w.ledger.isFree project = .ok free := by
    unfold Ledger.isFree
    cases hfind : Table.find? w.ledger project with
    | none => exact ⟨true, rfl⟩
    | some r => exact h.records project r hfind
  unfold Converter.beginRecord Workshop.create Ledger.create
  rw [hfree]
  cases free with
  | true => exact .inl ⟨_, rfl⟩
  | false => exact .inr rfl

/-- A start is accepted, or fails in a way that has an answer. -/
theorem IsUsable.begin?_cases (h : s.IsUsable w) (hfolder : w.hasFolder project = .ok true) :
    (∃ total w', s.converter.begin? project w = (.ok total, w')) ∨
      ∃ f, s.converter.begin? project w = (.error (.failure f), w) ∧
        (f.kind = .project ∨ f.kind = .inProgress) := by
  obtain ⟨files, hfiles⟩ := h.exists_sources project
  have hneed : Converter.needFolder project w = .ok () := by
    unfold Converter.needFolder
    rw [hfolder]
    rfl
  unfold Converter.begin? Converter.needSources
  rw [hneed, hfiles]
  cases files with
  | nil => exact .inr ⟨_, rfl, .inl rfl⟩
  | cons file files =>
      simp only [bind, Except.bind, List.isEmpty_cons, Bool.false_eq_true, if_false, pure,
        Except.pure]
      rcases h.beginRecord_cases project (file :: files).length with ⟨w', hbegun⟩ | hrefused
      · rw [hbegun]
        exact .inl ⟨_, _, rfl⟩
      · rw [hrefused]
        exact .inr ⟨_, rfl, .inr rfl⟩

/-- A start is answered if the folder of the project can be asked for. -/
theorem IsUsable.start_cases (h : s.IsUsable w) (project : String) :
    (∃ there, w.hasFolder project = .ok there) ∧ (s.start project w).1.status ∈ foreseen ∨
      (¬ ∃ there, w.hasFolder project = .ok there) ∧ (s.start project w).1.status ∉ foreseen := by
  unfold start
  cases hfolder : w.hasFolder project with
  | error incident =>
      exact .inr ⟨fun ⟨_, h⟩ => (nomatch h), show 500 ∉ foreseen by decide⟩
  | ok there =>
      refine .inl ⟨⟨there, rfl⟩, ?_⟩
      cases there with
      | false => exact show 404 ∈ foreseen by decide
      | true =>
          dsimp only
          unfold Converter.start
          rcases h.begin?_cases hfolder with ⟨total, w', hbegun⟩ | ⟨f, hfailed, hkind⟩
          · rw [hbegun]
            exact show 200 ∈ foreseen by decide
          · rw [hfailed]
            dsimp only
            rcases hkind with hkind | hkind
            · rw [Reply.ofResult_failure (by rw [hkind]; rfl), startRefusal, hkind]
              exact show 400 ∈ foreseen by decide
            · rw [Reply.ofResult_failure (by rw [hkind]; rfl), startRefusal, hkind]
              exact show 409 ∈ foreseen by decide

/-- A project whose folder is there can be analysed. -/
theorem IsUsable.exists_analysis (h : s.IsUsable w) (hname : isProjectName project = true)
    (hfolder : w.hasFolder project = .ok true) :
    ∃ result, Analysis.ofProject s.converter.settings (Workshop.folderOf project) w.tree =
      .ok result := by
  obtain ⟨suffixes, hsuffixes⟩ := h.suffixes
  obtain ⟨skipped, hskipped⟩ := h.skipped
  obtain ⟨listed, hlisted⟩ := h.packages project hname hfolder
  obtain ⟨names, hnames⟩ :
      ∃ names, Analysis.dependenciesOf w.tree (Workshop.folderOf project) = .ok names := by
    unfold Analysis.dependenciesOf
    dsimp only
    rw [hlisted]
    exact ⟨_, rfl⟩
  unfold Analysis.ofProject Discovery.sources
  rw [hsuffixes, hskipped, hnames]
  exact ⟨_, rfl⟩

/-- Where the folder of a project cannot be asked for, the storage says so. -/
theorem storage_of_hasFolder {incident : Incident} (h : w.hasFolder project = .error incident) :
    ∃ fault, incident = .storage fault := by
  unfold Workshop.hasFolder at h
  cases hleads : w.tree.leadsToFolder (Workshop.folderOf project) with
  | ok there => rw [hleads] at h; cases h
  | error fault => rw [hleads] at h; cases h; exact ⟨fault, rfl⟩

/-- An analysis is answered in the same case. -/
theorem IsUsable.analysis_cases (h : s.IsUsable w) (hname : isProjectName project = true) :
    (∃ there, w.hasFolder project = .ok there) ∧ (s.analysis project w).status ∈ foreseen ∨
      (¬ ∃ there, w.hasFolder project = .ok there) ∧ (s.analysis project w).status ∉ foreseen := by
  unfold analysis Review.analysis Converter.needFolder
  cases hfolder : w.hasFolder project with
  | error incident =>
      refine .inr ⟨fun ⟨_, h⟩ => (nomatch h), ?_⟩
      obtain ⟨fault, rfl⟩ := storage_of_hasFolder hfolder
      exact show 500 ∉ foreseen by decide
  | ok there =>
      refine .inl ⟨⟨there, rfl⟩, ?_⟩
      cases there with
      | false => exact show 404 ∈ foreseen by decide
      | true =>
          obtain ⟨result, hresult⟩ := h.exists_analysis hname hfolder
          show (Reply.ofResult _ _ (Analysis.ofProject _ _ _)).status ∈ foreseen
          rw [hresult]
          exact show 200 ∈ foreseen by decide

/-! ### Answers -/

/-- A request that names a project is answered as it should be if the document is made out and the
folder of the project can be asked for. -/
theorem isOwed_iff_of_project {resource : Resource} (hresource : resource ≠ .snippet)
    {answer : Reply × Workshop σ} (onProject : String → Reply × Workshop σ)
    (haccepted : ∀ project, projectOf document = .ok project → answer = onProject project)
    (hrefused : ∀ reply, projectOf document = .error reply → answer = (reply, w))
    (hcases : ∀ project, isProjectName project = true →
      (∃ there, w.hasFolder project = .ok there) ∧ (onProject project).1.status ∈ foreseen ∨
        (¬ ∃ there, w.hasFolder project = .ok there) ∧ (onProject project).1.status ∉ foreseen) :
    (IsOwed document resource w answer ↔ s.CanAnswer document resource w) ∧
      (IsMalformed document resource → answer.2 = w) := by
  have hmalformed : IsMalformed document resource ↔
      ∀ name, document.member "projectId" = .text name → ¬ IsFolderName name := by
    cases resource <;> first | exact Iff.rfl | exact absurd rfl hresource
  rcases projectOf_cases document hresource with
    ⟨name, hnamed, hname, hprojectOf, hmadeOut⟩ | ⟨message, hnone, hprojectOf, hmadeOut⟩ |
    ⟨hprojectOf, hnot, hnone⟩
  · obtain rfl := haccepted name hprojectOf
    have hwell : ¬ IsMalformed document resource := fun h =>
      hmalformed.mp h name hnamed (isFolderName_of_isProjectName hname)
    refine ⟨?_, fun h => absurd h hwell⟩
    rcases hcases name hname with ⟨hfolder, hstatus⟩ | ⟨hno, hstatus⟩
    · refine iff_of_true ⟨hstatus, fun h => absurd h hwell⟩
        ⟨hmadeOut, fun _ name' hnamed' _ => ?_, fun h => absurd h hresource⟩
      cases hnamed.symm.trans hnamed'
      exact hfolder
    · exact iff_of_false (fun h => hstatus h.foreseen)
        fun h => hno (h.folder hresource name hnamed hname)
  · obtain rfl := hrefused _ hprojectOf
    refine ⟨iff_of_true ⟨show 400 ∈ foreseen by decide, fun _ => ⟨rfl, rfl⟩⟩
      ⟨hmadeOut, fun _ name hnamed hname => ?_, fun h => absurd h hresource⟩, fun _ => rfl⟩
    exact absurd (hname.symm.trans (hnone name hnamed)) nofun
  · obtain rfl := hrefused _ hprojectOf
    exact ⟨iff_of_false (fun h => absurd h.foreseen (show 500 ∉ foreseen by decide))
      fun h => hnot h.madeOut, fun _ => rfl⟩

/-- A single text is answered with its result if the conversion has no gap for it. -/
theorem snippet_cases (ht : s.converter.textConverter.parser.IsSound) {members : Table Value}
    {code : String} (hcode : (Value.object members).member "code" = .text code)
    (hgiven : Text.isBlankText code = false) :
    s.converter.textConverter.CanConvert (Text.strip (withoutMarks code)) w ∧
        (s.snippet (.object members) w).1.status = 200 ∨
      ¬ s.converter.textConverter.CanConvert (Text.strip (withoutMarks code)) w ∧
        (s.snippet (.object members) w).1.status = 500 := by
  have hfound : (Table.find? members "code").getD .null = .text code := hcode
  have hfull : ¬ (Text.strip ((Value.text code).text?.getD "")).isEmpty = true := by
    rw [Text.isEmpty_strip]
    exact Bool.not_eq_true _ ▸ hgiven
  unfold snippet
  dsimp only
  rw [hfound]
  rw [if_neg hfull]
  dsimp only [Value.text?, Option.getD_some]
  generalize ((Table.find? members "fileName").getD .null).orElse _ = name
  rcases TextConverter.convertSnippet_cases ht code name w with ⟨hcan, r, hr⟩ |
    ⟨hnot, incident, hincident⟩
  · rw [hr]
    exact .inl ⟨hcan, rfl⟩
  · rw [hincident]
    exact .inr ⟨hnot, rfl⟩

/-- A single text is answered for as it should be if it stands in an object and the conversion has
no gap for it. -/
theorem isOwed_iff_of_snippet (ht : s.converter.textConverter.parser.IsSound)
    (document : Value) (w : Workshop σ) :
    (IsOwed document .snippet w (s.snippet document w) ↔ s.CanAnswer document .snippet w) ∧
      (IsMalformed document .snippet → (s.snippet document w).2 = w) := by
  cases document with
  | object members =>
      have hmadeOut : IsMadeOut (.object members) .snippet :=
        ⟨⟨members, rfl⟩, fun h => absurd rfl h⟩
      have hcanAnswer : s.CanAnswer (.object members) .snippet w ↔
          ∀ code, (Value.object members).member "code" = .text code →
            Text.isBlankText code = false →
            s.converter.textConverter.CanConvert (Text.strip (withoutMarks code)) w :=
        ⟨fun h => h.code rfl, fun h => ⟨hmadeOut, fun h => absurd rfl h, fun _ => h⟩⟩
      rw [hcanAnswer]
      by_cases hblank : IsMalformed (.object members) .snippet
      · have hempty : (Text.strip
            (((Table.find? members "code").getD .null).text?.getD "")).isEmpty = true := by
          rw [Text.isEmpty_strip]
          cases hcode : (Table.find? members "code").getD .null with
          | text code => exact hblank code hcode
          | _ => rfl
        have hsnippet : s.snippet (.object members) w =
            (.error 400 "No code provided. Expected field: code", w) := by
          unfold snippet
          dsimp only
          rw [if_pos hempty]
        rw [hsnippet]
        refine ⟨iff_of_true ⟨show 400 ∈ foreseen by decide, fun _ => ⟨rfl, rfl⟩⟩
          fun code hcode hgiven => ?_, fun _ => rfl⟩
        exact absurd (hgiven.symm.trans (hblank code hcode)) nofun
      · refine ⟨?_, fun h => absurd h hblank⟩
        obtain ⟨code, hblank'⟩ := not_forall.mp hblank
        obtain ⟨hcode, hgiven⟩ := Classical.not_imp.mp hblank'
        have hgap : (∀ code, (Value.object members).member "code" = .text code →
            Text.isBlankText code = false →
            s.converter.textConverter.CanConvert (Text.strip (withoutMarks code)) w) ↔
            s.converter.textConverter.CanConvert (Text.strip (withoutMarks code)) w := by
          refine ⟨fun h => h code hcode (Bool.not_eq_true _ ▸ hgiven), fun h code' hcode' _ => ?_⟩
          cases hcode.symm.trans hcode'
          exact h
        rw [hgap]
        rcases snippet_cases (w := w) ht hcode (Bool.not_eq_true _ ▸ hgiven) with
          ⟨hcan, hstatus⟩ | ⟨hnot, hstatus⟩
        · refine iff_of_true ⟨?_, fun h => absurd h hblank⟩ hcan
          exact hstatus ▸ (show 200 ∈ foreseen by decide)
        · refine iff_of_false (fun h => ?_) hnot
          exact absurd (hstatus ▸ h.foreseen) (show 500 ∉ foreseen by decide)
  | _ =>
      exact ⟨iff_of_false (fun h => absurd h.foreseen (show 500 ∉ foreseen by decide))
        (fun h => nomatch h.madeOut.object), fun _ => rfl⟩

theorem serve_of_route {f : Framework} {r : Request} {resource : Resource}
    (hmethod : r.method = "POST") (hroute : f.route "POST" r.target = .resource resource) :
    s.serve f r w = s.respond (f.document r) w resource := by
  have hupper : "POST".toUpper = "POST" := by
    rw [← String.toList_inj, String.toUpper, String.toList_map]
    decide
  unfold serve
  dsimp only
  rw [hmethod, hupper, hroute]
  rfl

/-- **Requests that bring a document are answered as they should be, exactly if they can be
answered**, and one that does not say what is asked for changes nothing in any case.  The framework
may read any document from a request. -/
theorem isOwed_serve_iff {s : Surface σ} {w : Workshop σ} (h : s.IsUsable w) {f : Framework}
    {r : Request} {resource : Resource} (hmethod : r.method = "POST")
    (hroute : f.route "POST" r.target = .resource resource)
    (hresource : resource.takesDocument = true) :
    (IsOwed (f.document r) resource w (s.serve f r w) ↔ s.CanAnswer (f.document r) resource w) ∧
      (IsMalformed (f.document r) resource → (s.serve f r w).2 = w) := by
  rw [serve_of_route hmethod hroute]
  cases resource with
  | conversion =>
      have hne : Resource.conversion ≠ .snippet := nofun
      refine isOwed_iff_of_project hne (fun project => s.start project w)
        (fun project hproject => ?_) (fun reply hreply => ?_) fun project _ => h.start_cases project
      · unfold respond
        rw [hproject]
      · unfold respond
        rw [hreply]
  | analysis =>
      have hne : Resource.analysis ≠ .snippet := nofun
      refine isOwed_iff_of_project hne (fun project => (s.analysis project w, w))
        (fun project hproject => ?_) (fun reply hreply => ?_) fun project => h.analysis_cases
      · unfold respond
        rw [hproject]
      · unfold respond
        rw [hreply]
  | snippet => exact isOwed_iff_of_snippet h.parser (f.document r) w
  | _ => cases hresource

/-! ### A small service -/

/-- A service that asks nobody.  Its parser takes every text for an empty one, as the source of the
one project is. -/
def small : Surface Unit :=
  { converter :=
      { settings := .small
        textConverter := { useAi := false, service := none, parser := fun _ => .ok [] } }
    breakers := fun _ => [] }

/-- The workshop with one project. -/
abbrev oneProject : Workshop Unit := Review.showing (Review.oneFile [])

/-- A request that brings a body. -/
def post (target body : String) : Request :=
  { method := "POST", target, contentType := "application/json", body }

theorem document_post {target body : String} {v : Value} (h : readBody body = some v) :
    Framework.usual.document (post target body) = v.orElse (.object []) := by
  have hsays : saysJson "application/json" = true := by decide +kernel
  have hgiven : (post target body).given? = some v := by
    unfold Request.given?
    rw [show (post target body).contentType = "application/json" from rfl, if_pos hsays]
    exact h
  unfold Framework.document Framework.usual
  dsimp only
  rw [hgiven]
  rfl

/-- No path of short names is too long in the small workshop. -/
theorem entry?_oneProject (path : List String) (hdots : ".." ∉ path)
    (hnull : (path.any fun name => name.toList.contains '\x00') = false)
    (hsize : (oneProject.tree.shown path).utf8ByteSize ≤ maxPathBytes)
    (hnames : ∀ name ∈ path, name.utf8ByteSize ≤ maxNameBytes) :
    oneProject.tree.entry? path = .ok (oneProject.tree.top.at? path) := by
  refine (FileTree.entry?_of_hasNoLink (Review.hasNoLink_oneFile (by simp)) hdots hnull).1 ?_
  rintro (hlong | ⟨front, name, back, rfl, -, hlong⟩)
  · exact absurd hsize (Nat.not_le_of_lt hlong)
  · exact absurd (hnames name (by simp)) (Nat.not_le_of_lt hlong)

/-- The small workshop has no project but the one. -/
theorem eq_demo_of_hasFolder {project : String} (hname : isProjectName project = true)
    (h : oneProject.hasFolder project = .ok true) : project = "demo" := by
  obtain ⟨-, hparts, hdots⟩ := parts_of_isProjectName hname
  by_contra hne
  have hnone : oneProject.tree.top.at? [project] = none := by
    show (Table.find? [("demo", _)] project).bind _ = none
    rw [Table.find?_cons, if_neg hne]
    rfl
  unfold Workshop.hasFolder Workshop.folderOf FileTree.leadsToFolder FileTree.entry? at h
  rw [hparts] at h
  cases hspot : oneProject.tree.spot [project] with
  | found place e links =>
      have htop : oneProject.tree.LeadsTo [] [] oneProject.tree.top :=
        FileTree.leadsTo_of_names rfl nofun nofun (by decide)
      have hleads : oneProject.tree.LeadsTo ([] ++ [project]) place e := ⟨links, hspot⟩
      have hplace : place = [project] := htop.place_of_hasNoLink
        (Review.hasNoLink_oneFile (by simp)) (by simpa using Ne.symm hdots) hleads
      have he := (FileTree.leadsTo_iff.mp hleads).2.2
      rw [hplace, hnone] at he
      cases he
  | free place => rw [hspot] at h; cases h
  | problem problem => rw [hspot] at h; cases problem <;> cases h

theorem isUsable_small : small.IsUsable oneProject where
  suffixes := ⟨_, rfl⟩
  skipped := ⟨_, rfl⟩
  parser := by
    refine ⟨fun code nodes h n hn => ?_, fun code name text h => ?_⟩
    · cases h
      cases hn
    · cases h
  records := nofun
  packages := by
    intro project hname hfolder
    obtain rfl := eq_demo_of_hasFolder hname hfolder
    have hentry := entry?_oneProject ["demo", "composer.json"] (by decide) (by decide)
      (by decide) (by decide)
    refine ⟨false, ?_⟩
    show (oneProject.tree.leadsToFile ["demo", "composer.json"]) = _
    unfold FileTree.leadsToFile
    rw [hentry]
    rfl

theorem route_conversion :
    Framework.usual.route "POST" "/api/convert/all" = .resource .conversion := by
  decide +kernel

/-- The request to convert the one project. -/
def demoRequest : Request := post "/api/convert/all" "\x7b\"projectId\": \"demo\"\x7d"

theorem document_demoRequest :
    Framework.usual.document demoRequest = .object [("projectId", .text "demo")] :=
  document_post (v := .object [("projectId", .text "demo")]) (by decide +kernel)

theorem canAnswer_demoRequest :
    small.CanAnswer (Framework.usual.document demoRequest) .conversion oneProject := by
  rw [document_demoRequest]
  refine ⟨⟨⟨_, rfl⟩, fun _ => .inl rfl⟩, fun _ name hnamed _ => ?_, nofun⟩
  cases hnamed
  refine ⟨true, ?_⟩
  have hentry := entry?_oneProject ["demo"] (by decide) (by decide) (by decide)
    (by decide)
  show (oneProject.tree.leadsToFolder ["demo"]).mapError _ = _
  unfold FileTree.leadsToFolder
  rw [hentry]
  rfl

/-- A request to convert the one project is answered as it should be. -/
theorem isOwed_serve_demo :
    small.IsUsable oneProject ∧ demoRequest.method = "POST" ∧
      Framework.usual.route "POST" demoRequest.target = .resource .conversion ∧
      IsOwed (Framework.usual.document demoRequest) .conversion oneProject
        (small.serve .usual demoRequest oneProject) :=
  ⟨isUsable_small, rfl, route_conversion,
    (isOwed_serve_iff (r := demoRequest) isUsable_small rfl route_conversion rfl).1.mpr
      canAnswer_demoRequest⟩

/-- A request whose project is a number. -/
def numberRequest : Request := post "/api/convert/all" "\x7b\"projectId\": 5\x7d"

theorem document_numberRequest :
    Framework.usual.document numberRequest = .object [("projectId", .int 5)] :=
  document_post (v := .object [("projectId", .int 5)]) (by decide +kernel)

/-- A document in which the project is a number is taken for an error of the service, and not
refused. -/
theorem not_isOwed_numberRequest :
    small.IsUsable oneProject ∧
      IsMalformed (Framework.usual.document numberRequest) .conversion ∧
      (small.serve .usual numberRequest oneProject).1.status = 500 ∧
      ¬ IsOwed (Framework.usual.document numberRequest) .conversion oneProject
        (small.serve .usual numberRequest oneProject) := by
  have hstatus : (small.serve .usual numberRequest oneProject).1.status = 500 := by
    rw [serve_of_route (r := numberRequest) rfl route_conversion, document_numberRequest]
    rfl
  refine ⟨isUsable_small, ?_, hstatus, fun h => ?_⟩
  · rw [document_numberRequest]
    exact fun name h => nomatch h
  · exact absurd (hstatus ▸ h.foreseen) (show 500 ∉ foreseen by decide)

end Surface

end Http

end PhpMigration
