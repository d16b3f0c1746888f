/-
What an attempt writes, and what it leaves alone.

An attempt claims a path for its file and writes to that path only.  The claims are fair, so other
files hold other paths, and below an output folder without links other paths lead to other places.
So what has been written for another file stays as it is, whatever comes of the attempt, and after
an attempt that succeeds the path of the mapping leads to the text (`Attempted.writesFor`,
`Attempted.holds`).
-/
import PhpMigration.Proofs.Project.Claims
import PhpMigration.Proofs.Project.Moves
import PhpMigration.Proofs.Project.Skeleton
import PhpMigration.Proofs.Role

namespace PhpMigration

variable {σ : Type}

namespace Workshop

/-- The claims of a project. -/
def claimsOf (w : Workshop σ) (project : String) : Claims := (Table.find? w.claims project).getD []

/-- What a conversion relies on when it writes. -/
structure IsTidy (w : Workshop σ) (project : String) (output : List String) : Prop where
  fair : (w.claimsOf project).IsFair
  /-- There is no link in the folder that the output goes to. -/
  output : ∃ place e, w.tree.LeadsTo output place e ∧ e.HasNoLink

/-- A text has been written for a file, to the path of its mapping. -/
structure Holds (w : Workshop σ) (project : String) (output : List String) (file : String)
    (m : Mapping) (code : String) : Prop where
  source : m.source = file
  role : m.role ∈ Role.priority
  held : (m.target, file) ∈ w.claimsOf project
  written : ∃ place, w.tree.LeadsTo (output ++ Path.parts m.target) place
    (.file (Text.Utf8.encode code))

/-- Nothing has been written but what a file holds. -/
structure WritesFor (project : String) (output : List String) (file : String)
    (w w' : Workshop σ) : Prop where
  tidy : w'.IsTidy project output
  grown : w.tree.Grown w'.tree
  others : ∀ other m code, other ≠ file → w.Holds project output other m code →
    w'.Holds project output other m code

variable {w w' w'' : Workshop σ} {project file : String} {output : List String}

theorem IsTidy.congr (h : w.IsTidy project output) (htree : w'.tree = w.tree)
    (hclaims : w'.claims = w.claims) : w'.IsTidy project output := by
  obtain ⟨hfair, houtput⟩ := h
  refine ⟨?_, by rwa [htree]⟩
  unfold claimsOf at hfair ⊢
  rwa [hclaims]

theorem Holds.congr {m : Mapping} {code : String} (h : w.Holds project output file m code)
    (htree : w'.tree = w.tree) (hclaims : w'.claims = w.claims) :
    w'.Holds project output file m code := by
  obtain ⟨hsource, hrole, hheld, hwritten⟩ := h
  refine ⟨hsource, hrole, ?_, by rwa [htree]⟩
  unfold claimsOf at hheld ⊢
  rwa [hclaims]

/-- Where the files and the claims are the same, nothing has been written. -/
theorem WritesFor.of_eq (h : w.IsTidy project output) (htree : w'.tree = w.tree)
    (hclaims : w'.claims = w.claims) : WritesFor project output file w w' := by
  refine ⟨h.congr htree hclaims, ?_, fun _ _ _ _ hheld => hheld.congr htree hclaims⟩
  rw [htree]
  exact .refl _

theorem WritesFor.congr (h : WritesFor project output file w w') (htree : w''.tree = w'.tree)
    (hclaims : w''.claims = w'.claims) : WritesFor project output file w w'' := by
  refine ⟨h.tidy.congr htree hclaims, ?_, ?_⟩
  · rw [htree]
    exact h.grown
  · exact fun other m code hne hholds => (h.others other m code hne hholds).congr htree hclaims

theorem claimsOf_claim (w : Workshop σ) (project file path : String) :
    (w.claim project file path).2.claimsOf project =
      ((w.claimsOf project).claim file path).2 := by
  unfold claimsOf claim
  dsimp only
  rw [Table.find?_set, if_pos rfl]
  rfl

/-- Different paths below an output folder without links lead to different places. -/
theorem IsTidy.target_unique (h : w.IsTidy project output) {path path' : String}
    (hpath : IsOutputPath path) (hpath' : IsOutputPath path') {place : List String} {e e' : Entry}
    (hleads : w.tree.LeadsTo (output ++ Path.parts path) place e)
    (hleads' : w.tree.LeadsTo (output ++ Path.parts path') place e') : path = path' := by
  obtain ⟨folder, inner, hfolder, hlinks⟩ := h.output
  have hplace := hfolder.place_of_hasNoLink hlinks hpath.dots_not_mem_parts hleads
  have hplace' := hfolder.place_of_hasNoLink hlinks hpath'.dots_not_mem_parts hleads'
  exact hpath.parts_injective hpath' (List.append_cancel_left (hplace.symm.trans hplace'))

end Workshop

/-! ### One delivery -/

namespace Converter

open Workshop

variable {r : Run} {m : Mapping} {w : Workshop σ}

/-- The path that a mapping is given when it is delivered. -/
def given (r : Run) (m : Mapping) (w : Workshop σ) : String :=
  ((w.claimsOf r.project).claim m.source m.target).1

theorem deliver_tree (r : Run) (m : Mapping) (code : String) (w : Workshop σ) :
    (deliver r m code w).2.tree =
      (Skeleton.writeFile (r.output ++ Path.parts (given r m w)) code w.tree).2 := by
  unfold deliver
  dsimp only
  split
  · rename_i tree hwrite
    exact congrArg Prod.snd hwrite.symm
  · rename_i fault tree hwrite
    exact congrArg Prod.snd hwrite.symm

theorem deliver_claimsOf (r : Run) (m : Mapping) (code : String) (w : Workshop σ) :
    (deliver r m code w).2.claimsOf r.project =
      ((w.claimsOf r.project).claim m.source m.target).2 := by
  rw [← claimsOf_claim]
  unfold deliver
  dsimp only
  split <;> rfl

/-- A mapping is delivered if the text has been written to the path that it is given. -/
theorem deliver_ok {m' : Mapping} {code : String} (h : (deliver r m code w).1 = .ok m') :
    m' = { m with target := given r m w } ∧
      (Skeleton.writeFile (r.output ++ Path.parts (given r m w)) code w.tree).1 = .ok () := by
  unfold deliver at h
  dsimp only at h
  split at h
  · rename_i tree hwrite
    cases h
    exact ⟨rfl, congrArg Prod.fst hwrite⟩
  · cases h

/-- A delivery writes nothing but what its file holds. -/
theorem writesFor_deliver (h : w.IsTidy r.project r.output) (hpath : IsOutputPath m.target)
    (code : String) : WritesFor r.project r.output m.source w (deliver r m code w).2 := by
  obtain ⟨hfair, hheld, hkept⟩ := h.fair.claim m.source hpath
  obtain ⟨hbuilt, -⟩ := Skeleton.built_writeFile (r.output ++ Path.parts (given r m w)) code w.tree
  rw [← deliver_tree] at hbuilt
  rw [← deliver_claimsOf r m code] at hfair hheld hkept
  have htidy : (deliver r m code w).2.IsTidy r.project r.output := by
    obtain ⟨place, e, hleads, hlinks⟩ := h.output
    exact ⟨hfair, place, hbuilt.leadsTo_hasNoLink hleads hlinks⟩
  refine ⟨htidy, hbuilt.grown, ?_⟩
  intro other m₀ code₀ hne hold
  obtain ⟨place, hleads⟩ := hold.written
  refine ⟨hold.source, hold.role, hkept _ hold.held, place, hbuilt.leadsTo_file hleads ?_⟩
  -- else the path of the other file would be the one that is written
  intro hwritten
  obtain ⟨e, hleads', -⟩ := hbuilt.grown.leadsTo hleads
  have hsame := htidy.target_unique (hfair.target (hkept _ hold.held)) (hfair.target hheld) hleads'
    hwritten
  have hother := hkept _ hold.held
  rw [hsame] at hother
  exact hne (hfair.file_unique hother hheld)

/-- What is delivered is there. -/
theorem holds_deliver (h : w.IsTidy r.project r.output) (hpath : IsOutputPath m.target)
    (hrole : m.role ∈ Role.priority) {m' : Mapping} {code : String}
    (hok : (deliver r m code w).1 = .ok m') :
    (deliver r m code w).2.Holds r.project r.output m.source m' code := by
  obtain ⟨-, hheld, -⟩ := h.fair.claim m.source hpath
  obtain ⟨rfl, hwrite⟩ := deliver_ok hok
  obtain ⟨place, hleads⟩ := (Skeleton.built_writeFile _ code w.tree).2 hwrite
  rw [← deliver_tree] at hleads
  rw [← deliver_claimsOf r m code] at hheld
  exact ⟨rfl, hrole, hheld, place, hleads⟩

end Converter

/-! ### One attempt -/

theorem Mapping.role_ofFile_mem_priority (fileName content : String) :
    (Mapping.ofFile fileName content).role ∈ Role.priority := by
  unfold Mapping.ofFile
  dsimp only
  exact Role.classify_mem_priority content fileName

namespace Attempted

open Workshop

variable {r : Run} {file : List String} {w w' : Workshop σ}
  {result : Except Incident (Mapping × String)}

/-- What the service keeps has nothing to do with what is written. -/
theorem isTidy_service (htidy : w.IsTidy r.project r.output) (s : σ) :
    ({ w with service := s } : Workshop σ).IsTidy r.project r.output :=
  htidy.congr rfl rfl

theorem isOutputPath_ofFile (fileName content : String) :
    IsOutputPath (Mapping.ofFile fileName content).target :=
  Role.isOutputPath_outputPath _ fileName

/-- **An attempt writes nothing but what its file holds.** -/
theorem writesFor (h : Attempted r file w result w') (htidy : w.IsTidy r.project r.output) :
    WritesFor r.project r.output (Path.join file) w w' := by
  have hdeliver : ∀ content code (s : σ), WritesFor r.project r.output (Path.join file) w
      (Converter.deliver r (.ofFile (Path.join file) content) code { w with service := s }).2 := by
    intro content code s
    have hall := Converter.writesFor_deliver (isTidy_service htidy s)
      (isOutputPath_ofFile (Path.join file) content) code
    exact ⟨hall.tidy, hall.grown, fun other m code hne hold =>
      hall.others other m code hne (hold.congr rfl rfl)⟩
  cases h with
  | unread cause => exact .of_eq htidy rfl rfl
  | unconverted cause s => exact .of_eq htidy rfl rfl
  | unwritten cause content part s => exact hdeliver content part s
  | delivered content code s h =>
      have hall := hdeliver content code s
      rwa [h] at hall

/-- **What an attempt that succeeds has written is there.** -/
theorem holds {m : Mapping} {code : String} (h : Attempted r file w (.ok (m, code)) w')
    (htidy : w.IsTidy r.project r.output) :
    w'.Holds r.project r.output (Path.join file) m code := by
  cases h with
  | delivered content code s h =>
      have hall := Converter.holds_deliver (isTidy_service htidy s)
        (isOutputPath_ofFile (Path.join file) content)
        (Mapping.role_ofFile_mem_priority (Path.join file) content) (congrArg Prod.fst h)
      rwa [h] at hall

end Attempted

end PhpMigration
