/-
What can be foreseen of a conversion that takes up its files in order.

Where what comes of a text depends on nothing but the name and the text, every attempt at a file
comes to one and the same thing, and which it is follows from the files before it alone: they have
made their requests by then, and so it is known which path the file is given (`Prospect.result`).  An
attempt that is made later than those at other files comes to that, too, because a path that is given
once is kept, and because no source is read from a place that is written (`Keeps.attempt`).

What is relied on is that the claims are those of the files that have been taken up, and that what has
been written is what is foreseen.  If all of that was there before, nothing changes at all.
-/
import PhpMigration.Proofs.Project.Grants
import PhpMigration.Proofs.Project.Predicted
import PhpMigration.Proofs.Project.Rediscovery

namespace PhpMigration

variable {σ : Type}

/-- The strategy whose outcomes depend on nothing but the name of a file and its text. -/
def Strategy.reading (outcomes : String → String → Except Incident String) (project : String)
    (t : FileTree) : Strategy := fun file _ outcome =>
  ∀ content, Converter.sourceText t (Workshop.folderOf project ++ file) = .ok content →
    outcome = outcomes (Path.join file) content

/-! ### What a file comes to -/

/-- What is known of a conversion when it is ready for its first move. -/
structure Prospect where
  outcomes : String → String → Except Incident String
  project : String
  output : List String
  /-- The place of the output. -/
  place : List String
  tree : FileTree

namespace Prospect

/-- What a file asks for, and the text that it is converted to. -/
def request (p : Prospect) (file : List String) : Except Incident (Claims.Request × String) := do
  let content ← Converter.sourceText p.tree (Workshop.folderOf p.project ++ file)
  let code ← p.outcomes (Path.join file) content
  return (⟨Path.join file, Path.join file, content⟩, code)

/-- The requests that some files make. -/
def requests (p : Prospect) (files : List (List String)) : List Claims.Request :=
  files.filterMap fun file => (p.request file).toOption.map Prod.fst

/-- What comes of a text that is written to the path that it is given. -/
def delivery (p : Prospect) (m : Mapping) (code : String) : Except Incident (Mapping × String) :=
  match p.tree.refusal? (p.output ++ Path.parts m.target) (p.place ++ Path.parts m.target) with
  | some problem => .error (.storage (p.tree.fault problem (p.output ++ Path.parts m.target)))
  | none => .ok (m, code)

/-- What every attempt at a file comes to that is taken up after some others. -/
def result (p : Prospect) (before : List (List String)) (file : List String) :
    Except Incident (Mapping × String) := do
  let (q, code) ← p.request file
  p.delivery { q.mapping with target := Claims.given (p.requests before) q } code

/-- What comes of files that are taken up in order. -/
def trials (p : Prospect) (files : List (List String)) : List Trial :=
  files.mapIdx fun k file => ⟨file, p.result (files.take k) file⟩

end Prospect

/-- A path that is given lies in a folder for a role. -/
theorem Claims.isTarget_given (history : List Request) (q : Request) :
    IsTarget (given history q) := by
  have hheld := given_mem_after history q
  rcases hfirst : firstOf? (history ++ [q]) q.file with _ | initial
  · exact absurd hheld (not_mem_of_heldBy? ((holds_after _ _).nothing hfirst))
  · obtain ⟨stem, hstem, hmem⟩ := (holds_after _ _).inFolder initial hfirst
    exact ⟨initial.mapping.role, Mapping.role_ofFile_mem_priority _ _, stem,
      (isFair_after _).path_unique hheld hmem, hstem⟩

/-- A file that holds a path adds nothing. -/
theorem Claims.after_append_of_mem {history : List Request} {q : Request} {path : String}
    (h : (path, q.file) ∈ after history) : after (history ++ [q]) = after history := by
  rw [after_append]
  unfold claim
  rw [(heldBy?_eq_some_iff (isFair_after history)).mpr h]

theorem IsTarget.isOutputPath {path : String} (h : IsTarget path) : IsOutputPath path := by
  obtain ⟨role, -, stem, hstem⟩ := h
  exact ⟨role, stem, hstem⟩

namespace Prospect

variable {p p' : Prospect} {files before : List (List String)} {file : List String}
  {q : Claims.Request} {m : Mapping} {code : String} {i k : Nat}

theorem getElem?_trials (p : Prospect) (files : List (List String)) (k : Nat) :
    (p.trials files)[k]? = files[k]?.map fun file => ⟨file, p.result (files.take k) file⟩ :=
  List.getElem?_mapIdx

theorem map_file_trials (p : Prospect) (files : List (List String)) :
    (p.trials files).map Trial.file = files := by
  refine List.ext_getElem? fun k => ?_
  rw [List.getElem?_map, getElem?_trials, Option.map_map]
  exact Option.map_id'

theorem length_trials (p : Prospect) (files : List (List String)) :
    (p.trials files).length = files.length := List.length_mapIdx

/-- The request of a file is made in its name. -/
theorem request_ok (h : p.request file = .ok (q, code)) : ∃ content,
    Converter.sourceText p.tree (Workshop.folderOf p.project ++ file) = .ok content ∧
      p.outcomes (Path.join file) content = .ok code ∧
      q = ⟨Path.join file, Path.join file, content⟩ := by
  unfold request at h
  cases hread : Converter.sourceText p.tree (Workshop.folderOf p.project ++ file) with
  | error cause => rw [hread] at h; cases h
  | ok content =>
      rw [hread] at h
      cases houtcome : p.outcomes (Path.join file) content with
      | error cause => simp [houtcome, bind, Except.bind] at h
      | ok found =>
          simp only [houtcome, bind, Except.bind] at h
          cases h
          exact ⟨content, rfl, houtcome, rfl⟩

theorem requests_append (p : Prospect) (files more : List (List String)) :
    p.requests (files ++ more) = p.requests files ++ p.requests more := List.filterMap_append

theorem requests_take_succ (h : files[i]? = some file) : p.requests (files.take (i + 1)) =
    p.requests (files.take i) ++ ((p.request file).toOption.map Prod.fst).toList := by
  rw [List.take_add_one, h, requests_append]
  refine congrArg _ ?_
  unfold requests
  cases hrequest : p.request file <;> simp [hrequest, Except.toOption]

/-- What comes of a file that is given a path. -/
theorem result_ok (h : p.result before file = .ok (m, code)) : ∃ q,
    p.request file = .ok (q, code) ∧
      m = { q.mapping with target := Claims.given (p.requests before) q } ∧
      p.tree.refusal? (p.output ++ Path.parts m.target) (p.place ++ Path.parts m.target) = none := by
  unfold result at h
  cases hrequest : p.request file with
  | error cause => rw [hrequest] at h; cases h
  | ok found =>
      rw [hrequest] at h
      obtain ⟨q, code'⟩ := found
      change p.delivery _ code' = _ at h
      unfold delivery at h
      split at h
      · cases h
      · rename_i hplaced
        cases h
        exact ⟨q, rfl, rfl, hplaced⟩

theorem isTarget_of_result (h : p.result before file = .ok (m, code)) : IsTarget m.target := by
  obtain ⟨q, -, rfl, -⟩ := result_ok h
  exact Claims.isTarget_given _ q

/-- The request of a file stands between those of the files before it and those after it. -/
theorem exists_requests_take (hi : files[i]? = some file) (hq : p.request file = .ok (q, code))
    (hlt : i < k) : ∃ between,
      p.requests (files.take k) = p.requests (files.take i) ++ q :: between := by
  have hsplit : files.take k = files.take (i + 1) ++ (files.take k).drop (i + 1) := by
    have hfront : (files.take k).take (i + 1) = files.take (i + 1) := by
      rw [List.take_take, Nat.min_eq_left (Nat.succ_le_of_lt hlt)]
    rw [← hfront, List.take_append_drop]
  refine ⟨p.requests ((files.take k).drop (i + 1)), ?_⟩
  rw [hsplit, requests_append, requests_take_succ hi, hq, List.append_cons, ← hsplit]
  rfl

/-- A file is given the path that it was given first. -/
theorem given_requests (hi : files[i]? = some file) (hq : p.request file = .ok (q, code))
    (hlt : i < k) : Claims.given (p.requests (files.take k)) q =
      Claims.given (p.requests (files.take i)) q ∧
    Claims.after (p.requests (files.take k) ++ [q]) = Claims.after (p.requests (files.take k)) := by
  obtain ⟨between, hbetween⟩ := exists_requests_take hi hq hlt
  have hheld : (Claims.given (p.requests (files.take i)) q, q.file) ∈
      Claims.after (p.requests (files.take k)) := by
    rw [hbetween, List.append_cons]
    exact Claims.mem_after_append (Claims.given_mem_after _ q) between
  exact ⟨Claims.given_of_mem hheld, Claims.after_append_of_mem hheld⟩

/-- Different files are given different paths. -/
theorem target_unique (hdistinct : (files.map Path.join).Nodup) {file' : List String}
    {m' : Mapping} {code' : String}
    (h : (p.trials files)[i]? = some ⟨file, .ok (m, code)⟩)
    (h' : (p.trials files)[k]? = some ⟨file', .ok (m', code')⟩) (heq : m.target = m'.target) :
    i = k := by
  -- of two files the one that is taken up later would be given the path of the other
  have hlater : ∀ {i k : Nat} {file file' : List String} {m m' : Mapping} {code code' : String},
      (p.trials files)[i]? = some ⟨file, .ok (m, code)⟩ →
      (p.trials files)[k]? = some ⟨file', .ok (m', code')⟩ → m.target = m'.target → ¬ i < k := by
    intro i k file file' m m' code code' h h' heq hlt
    rw [getElem?_trials] at h h'
    obtain ⟨found, hi, hfound⟩ := Option.map_eq_some_iff.mp h
    obtain ⟨found', hk, hfound'⟩ := Option.map_eq_some_iff.mp h'
    obtain ⟨q, hq, rfl, -⟩ := result_ok (Trial.mk.inj hfound).2
    obtain ⟨q', hq', rfl, -⟩ := result_ok (Trial.mk.inj hfound').2
    obtain ⟨between, hbetween⟩ := exists_requests_take hi hq hlt
    obtain ⟨content, -, -, rfl⟩ := request_ok hq
    obtain ⟨content', -, -, rfl⟩ := request_ok hq'
    dsimp only at heq
    rw [hbetween] at heq
    have hname := ((Claims.isGrant _ _).lasting between _).mp heq.symm
    have hsame : (files.map Path.join)[i]? = (files.map Path.join)[k]? := by
      rw [List.getElem?_map, List.getElem?_map, hi, hk]
      exact congrArg some hname.symm
    have hbound := (List.getElem?_eq_some_iff.mp hi).1
    have hindex := (List.getElem?_inj (by simpa using hbound) hdistinct).mp hsame
    omega
  rcases Nat.lt_trichotomy i k with hless | hsame | hmore
  · exact absurd hless (hlater h h' heq)
  · exact hsame
  · exact absurd hmore (hlater h' h heq.symm)

/-! ### Attempts -/

theorem result_of_request_error {cause : Incident} (h : p.request file = .error cause) :
    p.result before file = .error cause := by
  unfold result
  rw [h]
  rfl

theorem result_of_request_ok (h : p.request file = .ok (q, code)) : p.result before file =
    p.delivery { q.mapping with target := Claims.given (p.requests before) q } code := by
  unfold result
  rw [h]
  rfl

/-- A file that cannot be read or converted makes no request. -/
theorem requests_of_error {cause : Incident} {taken : Nat} (hi : files[i]? = some file)
    (hle : i ≤ taken) (h : p.request file = .error cause) :
    p.requests (files.take (max taken (i + 1))) = p.requests (files.take taken) := by
  rcases Nat.lt_or_eq_of_le hle with hlt | rfl
  · rw [Nat.max_eq_left hlt]
  · rw [Nat.max_eq_right (Nat.le_succ i), requests_take_succ hi, h]
    exact List.append_nil _

/-- A file is given the path that is foreseen, whether it is taken up now or has been before. -/
theorem claim_requests {taken : Nat} (hi : files[i]? = some file) (hle : i ≤ taken)
    (h : p.request file = .ok (q, code)) :
    (Claims.after (p.requests (files.take taken))).claim q.file q.path =
      (Claims.given (p.requests (files.take i)) q,
        Claims.after (p.requests (files.take (max taken (i + 1))))) := by
  refine Prod.ext ?_ ?_
  · rcases Nat.lt_or_eq_of_le hle with hlt | rfl
    · exact (given_requests hi h hlt).1
    · rfl
  · rw [← Claims.after_append]
    rcases Nat.lt_or_eq_of_le hle with hlt | rfl
    · rw [Nat.max_eq_left hlt]
      exact (given_requests hi h hlt).2
    · rw [Nat.max_eq_right (Nat.le_succ i), requests_take_succ hi, h]
      rfl

/-- The output holds no link, the files are different, and none is read from a place that is
written. -/
structure IsClear (p : Prospect) (files : List (List String)) (written : List String → Prop) :
    Prop where
  laid : p.tree.IsLaidOut p.output p.place
  names : ∀ name ∈ p.output, Path.IsName name
  distinct : (files.map Path.join).Nodup
  apart : ∀ file ∈ files, p.tree.ReadsApart (Workshop.folderOf p.project ++ file) written

/-- The texts of all files are where they will be written. -/
def IsThere (p : Prospect) (files : List (List String)) (t : FileTree) : Prop :=
  ∀ trial ∈ p.trials files, ∀ m code, trial.result = .ok (m, code) →
    t.top.at? (p.place ++ Path.parts m.target) = some (.file (Text.Utf8.encode code))

/-- What is claimed and written when so many files have been taken up. -/
structure Keeps (p : Prospect) (files : List (List String)) (written : List String → Prop)
    (taken : Nat) (w : Workshop σ) : Prop where
  filled : p.tree.Filled written w.tree
  sound : w.tree.top.IsSound
  claims : w.claimsOf p.project = Claims.after (p.requests (files.take taken))
  there : ∀ k < taken, ∀ file m code, (p.trials files)[k]? = some ⟨file, .ok (m, code)⟩ →
    w.tree.top.at? (p.place ++ Path.parts m.target) = some (.file (Text.Utf8.encode code))
  /-- Nothing changes if all of it was there before. -/
  same : p.IsThere files p.tree → w.tree = p.tree

namespace Keeps

variable {written : List String → Prop} {taken : Nat} {w w' : Workshop σ} {r : Run}

theorem congr (h : p.Keeps files written taken w) (htree : w'.tree = w.tree)
    (hclaims : w'.claims = w.claims) : p.Keeps files written taken w' := by
  obtain ⟨hfilled, hsound, hheld, hthere, hsame⟩ := h
  refine ⟨htree ▸ hfilled, htree ▸ hsound, ?_, htree ▸ hthere, htree ▸ hsame⟩
  unfold Workshop.claimsOf at hheld ⊢
  rwa [hclaims]

theorem refusal?_eq (h : p.Keeps files written taken w) (path place : List String) :
    w.tree.refusal? path place = p.tree.refusal? path place :=
  FileTree.refusal?_of_grown h.filled.built.grown h.filled.folders path place

theorem fault_eq (h : p.Keeps files written taken w) (problem : StorageProblem)
    (path : List String) : w.tree.fault problem path = p.tree.fault problem path := by
  unfold FileTree.fault FileTree.shown
  rw [h.filled.built.grown.name]

/-- A text is delivered just if that is foreseen. -/
theorem deliver_eq (h : p.Keeps files written taken w) (hclear : p.IsClear files written)
    (houtput : r.output = p.output) {path : String} (hpath : IsTarget path)
    (hgiven : Converter.given r m w = path) (code : String) :
    (Converter.deliver r m code w).1.map (fun m => (m, code)) =
        p.delivery { m with target := path } code ∧
      (Converter.deliver r m code w).2.tree =
        match p.delivery { m with target := path } code with
        | .ok (m, code) => (Skeleton.writeFile (p.output ++ Path.parts m.target) code w.tree).2
        | .error _ => w.tree := by
  have hlaid := hclear.laid.built h.filled.built
  rw [Converter.deliver_fst, Converter.deliver_tree, hgiven, houtput, hlaid.writeFile_eq hpath,
    h.refusal?_eq]
  unfold delivery
  dsimp only
  cases hplaced : p.tree.refusal? (p.output ++ Path.parts path) (p.place ++ Path.parts path) with
  | none =>
      refine ⟨rfl, ?_⟩
      dsimp only
      rw [hlaid.writeFile_eq hpath, h.refusal?_eq, hplaced]
  | some problem =>
      refine ⟨?_, rfl⟩
      dsimp only
      rw [h.fault_eq]
      rfl

/-- **An attempt comes to what is foreseen**, whenever it is made, and writes nothing else. -/
theorem attemptOf_eq (h : p.Keeps files written taken w) (hclear : p.IsClear files written)
    (hproject : r.project = p.project) (houtput : r.output = p.output)
    (hi : files[i]? = some file) (hle : i ≤ taken) {n : Nat} {outcome : Except Incident String}
    (hs : Strategy.reading p.outcomes p.project w.tree file n outcome) :
    (Converter.attemptOf r file outcome w).1 = p.result (files.take i) file ∧
      (Converter.attemptOf r file outcome w).2.tree = (match p.result (files.take i) file with
        | .ok (m, code) => (Skeleton.writeFile (p.output ++ Path.parts m.target) code w.tree).2
        | .error _ => w.tree) ∧
      (Converter.attemptOf r file outcome w).2.claimsOf p.project =
        Claims.after (p.requests (files.take (max taken (i + 1)))) := by
  have hread := Converter.sourceText_of_read
    (h.filled.read_eq (hclear.apart file (List.mem_of_getElem? hi)))
  have hmissed : ∀ cause, p.request file = .error cause → w.claimsOf p.project =
      Claims.after (p.requests (files.take (max taken (i + 1)))) := by
    intro cause hcause
    rw [requests_of_error hi hle hcause]
    exact h.claims
  unfold Converter.attemptOf
  rw [hproject, hread]
  cases hsource : Converter.sourceText p.tree (Workshop.folderOf p.project ++ file) with
  | error cause =>
      have hrequest : p.request file = .error cause := by
        unfold request
        rw [hsource]
        rfl
      rw [result_of_request_error hrequest]
      exact ⟨rfl, rfl, hmissed cause hrequest⟩
  | ok content =>
      obtain rfl := hs content (hread.trans hsource)
      cases hout : p.outcomes (Path.join file) content with
      | error cause =>
          have hrequest : p.request file = .error cause := by
            unfold request
            simp only [hsource, hout, bind, Except.bind]
          rw [result_of_request_error hrequest]
          exact ⟨rfl, rfl, hmissed cause hrequest⟩
      | ok code =>
          have hrequest : p.request file = .ok (⟨Path.join file, Path.join file, content⟩, code) := by
            unfold request
            simp only [hsource, hout, bind, Except.bind]
            rfl
          have hclaim := claim_requests hi hle hrequest
          rw [← h.claims, ← hproject] at hclaim
          have hgiven := congrArg Prod.fst hclaim
          have hafter := congrArg Prod.snd hclaim
          obtain ⟨hresult, htree⟩ := h.deliver_eq hclear houtput
            (m := .ofFile (Path.join file) content) (Claims.isTarget_given _ _) hgiven code
          rw [result_of_request_ok hrequest]
          refine ⟨hresult, htree, ?_⟩
          rw [← hproject, Converter.deliver_claimsOf]
          exact hafter

end Keeps

theorem getElem?_trials_of (p : Prospect) (hi : files[i]? = some file) :
    (p.trials files)[i]? = some ⟨file, p.result (files.take i) file⟩ := by
  rw [getElem?_trials, hi]
  rfl

namespace Keeps

variable {written : List String → Prop} {taken : Nat} {w w' : Workshop σ} {r : Run}

/-- What is foreseen is written, and nothing but that. -/
theorem written_of_ok (h : p.Keeps files written taken w) (hclear : p.IsClear files written)
    (hi : files[i]? = some file) (hresult : p.result (files.take i) file = .ok (m, code))
    {t : FileTree} (ht : t = (Skeleton.writeFile (p.output ++ Path.parts m.target) code w.tree).2) :
    w.tree.Filled (· = p.place ++ Path.parts m.target) t ∧ t.top.IsSound ∧
      t.top.at? (p.place ++ Path.parts m.target) = some (.file (Text.Utf8.encode code)) ∧
      (p.IsThere files p.tree → w.tree = p.tree → t = w.tree) := by
  have hpath := isTarget_of_result hresult
  obtain ⟨-, -, -, hplaced⟩ := result_ok hresult
  have hlaid := hclear.laid.built h.filled.built
  have hwrite := hlaid.writeFile_eq hpath code
  rw [h.refusal?_eq, hplaced] at hwrite
  obtain ⟨there, hleads⟩ := (Skeleton.built_writeFile _ code w.tree).2 (congrArg Prod.fst hwrite)
  have hbuilt := hlaid.built_writeFile hpath code
  obtain ⟨e, hfolder, hlinks⟩ := (hlaid.built hbuilt).plain
  have hthere := hfolder.place_of_hasNoLink hlinks hpath.isOutputPath.dots_not_mem_parts hleads
  rw [ht]
  refine ⟨⟨hbuilt, fun other entries hother => hlaid.folder_of_writeFile hpath code hother⟩,
    Skeleton.isSound_writeFile h.sound (fun name hname => ?_) code, ?_, fun hall hbefore => ?_⟩
  · exact (List.mem_append.mp hname).elim (hclear.names name) Path.isName_of_mem_parts
  · rw [← hthere]
    exact (FileTree.leadsTo_iff.mp hleads).2.2
  · rw [hwrite]
    refine congrArg (FileTree.mk w.tree.name) (Entry.put_of_at? ?_)
    rw [hbefore]
    exact hall _ (List.mem_of_getElem? (p.getElem?_trials_of hi)) m code hresult

/-- **What is relied on is kept by an attempt** at a file that is taken up now or has been before. -/
theorem attempt (h : p.Keeps files written taken w) (hclear : p.IsClear files written)
    (hproject : r.project = p.project) (houtput : r.output = p.output)
    (hi : files[i]? = some file) (hle : i ≤ taken) {n : Nat} {outcome : Except Incident String}
    (hs : Strategy.reading p.outcomes p.project w.tree file n outcome)
    {result : Except Incident (Mapping × String)}
    (hattempt : Converter.attemptOf r file outcome w = (result, w'))
    (hwritten : ∀ m code, p.result (files.take i) file = .ok (m, code) →
      written (p.place ++ Path.parts m.target)) :
    result = p.result (files.take i) file ∧ p.Keeps files written (max taken (i + 1)) w' := by
  obtain ⟨hsame, htree, hclaims⟩ := h.attemptOf_eq hclear hproject houtput hi hle hs
  rw [hattempt] at hsame htree hclaims
  have hnext : ∀ {k : Nat}, k < max taken (i + 1) → k ≠ i → k < taken := by omega
  have hself := p.getElem?_trials_of hi
  refine ⟨hsame, ?_⟩
  cases hresult : p.result (files.take i) file with
  | error cause =>
      rw [hresult] at htree hself
      dsimp only at htree
      refine ⟨htree ▸ h.filled, htree ▸ h.sound, hclaims, fun k hk file' m code htrial => ?_,
        htree ▸ h.same⟩
      rw [htree]
      refine h.there k (hnext hk ?_) file' m code htrial
      rintro rfl
      rw [hself] at htrial
      cases htrial
  | ok done =>
      obtain ⟨m, code⟩ := done
      rw [hresult] at htree hself
      dsimp only at htree
      obtain ⟨hfilled, hsound, hthere, hunchanged⟩ := h.written_of_ok hclear hi hresult htree
      refine ⟨h.filled.trans (hfilled.mono ?_), hsound, hclaims, fun k hk file' m' code' htrial => ?_,
        fun hall => (hunchanged hall (h.same hall)).trans (h.same hall)⟩
      · rintro place rfl
        exact hwritten m code hresult
      by_cases hki : k = i
      · subst hki
        rw [hself] at htrial
        cases htrial
        exact hthere
      · refine hfilled.built.at?_file (h.there k (hnext hk hki) file' m' code' htrial) fun heq => ?_
        rw [p.getElem?_trials] at htrial
        obtain ⟨other, -, hother⟩ := Option.map_eq_some_iff.mp htrial
        have hpath := isTarget_of_result (Trial.mk.inj hother).2
        have htarget := hpath.isOutputPath.parts_injective
          (isTarget_of_result hresult).isOutputPath (List.append_cancel_left heq)
        rw [← p.getElem?_trials] at htrial
        exact hki (target_unique hclear.distinct htrial hself htarget)

end Keeps

end Prospect

end PhpMigration
