/-
The unit of indentation has a part in the layout only.

Where a line stands is said once more, apart from printing: it stands within the blocks that are
open around it, or it only sets two statements apart (`eachSites`).  A line that is printed is as
deep as there are blocks around it, and holds no line feed (`fits_linesEach`), so what is printed is
broken into the same lines whatever the unit is, and each is the unit as often as there are blocks
around it, and behind that what it holds.

The word of a declaration is printed as it stands, like a name or an operator.  A line feed in it
begins a line that has no indentation.
-/
import PhpMigration.Proofs.JavaScript.OneLine
import PhpMigration.Proofs.JavaScript.Program

namespace PhpMigration.JavaScript

/-! ### Where lines stand -/

/-- Where a line stands: within some blocks, which are given by their statements, the innermost
first, or nowhere if it only sets two statements apart. -/
abbrev Site := Option (List (List Node))

/-- The number of blocks around a line. -/
def Site.depth : Site → Nat
  | some around => around.length
  | none => 0

/-- The lines of a block before its last brace: the first brace stands outside it. -/
def bracketedSites (around : List (List Node)) (inner : List Site) : List Site :=
  if inner.isEmpty then [] else some around :: inner

mutual

/-- Where the lines of a statement stand, but for its last line, which stands where the statement
does. -/
def Node.sites (around : List (List Node)) : Node → List Site
  | .block body => bracketedSites around (eachSites (body :: around) none body)
  | .functionDeclaration _ _ body => body.bodySites around
  | .ifStatement _ consequent alternate =>
    consequent.bodySites around ++ alternate.elseSites around
  | .whileStatement _ body => body.bodySites around
  | .forStatement _ _ _ body => body.bodySites around
  | .forOf _ _ body => body.bodySites around
  | _ => []

/-- Where the lines of some statements stand, the one before them being `previous`. -/
def eachSites (around : List (List Node)) (previous : Option Node) : List Node → List Site
  | [] => []
  | .unlisted false :: _ => []
  | node :: rest =>
    (separation previous node).map (fun _ => none) ++ (node.sites around ++ [some around]) ++
      eachSites around (some node) rest

/-- Where the lines of a body stand, but for the last. -/
def Node.bodySites (around : List (List Node)) : Node → List Site
  | .block body => bracketedSites around (eachSites (body :: around) none body)
  | .program body => bracketedSites around (eachSites (body :: around) none body)
  | _ => []

/-- Where the lines of a second branch stand, but for the last.  A branch that is nothing but
another choice opens no block. -/
def Node.elseSites (around : List (List Node)) : Node → List Site
  | .block [only] =>
    if only.isChoice then only.sites around
    else bracketedSites around (only.sites ([only] :: around) ++ [some ([only] :: around)])
  | .block body => bracketedSites around (eachSites (body :: around) none body)
  | .program [only] =>
    if only.isChoice then only.sites around
    else bracketedSites around (only.sites ([only] :: around) ++ [some ([only] :: around)])
  | .program body => bracketedSites around (eachSites (body :: around) none body)
  | _ => []

end

/-- The line is as deep as there are blocks around it, has no line feed in it, and is empty if it
only sets statements apart. -/
structure Line.Fits (l : Line) (site : Site) : Prop where
  depth : l.depth = site.depth
  text : Text.IsOneLine l.text
  apart : site = none → l.text = ""

/-- Finished lines that stand where they should, and an open one without a line feed. -/
structure Opened.Fits (o : Opened) (sites : List Site) : Prop where
  lines : List.Forall₂ Line.Fits o.lines sites
  last : Text.IsOneLine o.last

section

variable {around : List (List Node)} {head : String} {inner sites : List Site} {body : List Line}
  {o : Opened}

theorem fits_bracketed (hhead : Text.IsOneLine head) (h : List.Forall₂ Line.Fits body inner) :
    (bracketed around.length head body).Fits (bracketedSites around inner) := by
  have hopen : Text.IsOneLine (head ++ "\x7b") := Text.isOneLine_append.mpr ⟨hhead, by decide⟩
  cases h with
  | nil => exact ⟨.nil, Text.isOneLine_append.mpr ⟨hhead, by decide⟩⟩
  | cons hfirst hrest =>
      exact ⟨.cons ⟨rfl, hopen, nofun⟩ (.cons hfirst hrest), (by decide : Text.IsOneLine "\x7d")⟩

theorem Opened.Fits.close (h : o.Fits sites) :
    List.Forall₂ Line.Fits (o.close around.length) (sites ++ [some around]) :=
  List.rel_append h.lines (.cons ⟨rfl, h.last, nofun⟩ .nil)

theorem fits_separation (previous : Option Node) (node : Node) :
    List.Forall₂ Line.Fits (separation previous node)
      ((separation previous node).map fun _ => none) := by
  unfold separation
  split
  · exact .nil
  · exact .nil
  · split
    · exact .cons ⟨rfl, by decide, fun _ => rfl⟩ .nil
    · exact .nil

theorem fits_one (h : Text.IsOneLine head) : Opened.Fits ⟨[], head⟩ [] := ⟨.nil, h⟩

/-- What is no statement is printed as an expression, in one line. -/
theorem Node.fits_expression {node : Node} (hnot : node.isStatement = false) (hplain : node.IsPlain)
    (hhead : Text.IsOneLine head) (h : node.flow around.length head = .ok o) :
    o.Fits (node.sites around) := by
  have hflow : node.flow around.length head =
      node.expressionText >>= fun text => pure ⟨[], head ++ text ++ ";"⟩ := by
    rw [Node.flow.eq_def]
    split
    all_goals first | cases hnot | rfl
  have hsites : node.sites around = [] := by
    rw [Node.sites.eq_def]
    split
    all_goals first | cases hnot | rfl
  rw [hflow] at h
  obtain ⟨text, htext, h⟩ := bind_eq_ok_iff.mp h
  obtain rfl := pure_eq_ok_iff.mp h
  rw [hsites]
  refine fits_one ?_
  simp only [Text.isOneLine_append]
  exact ⟨⟨hhead, isOneLine_expressionText hplain htext⟩, by decide⟩

/-- What is no block has no lines as a body. -/
theorem Node.fits_noBody {node : Node} (hblock : ∀ body, node ≠ .block body)
    (hprogram : ∀ body, node ≠ .program body) (hhead : Text.IsOneLine head)
    (h : node.blockFlow around.length head = .ok o) : o.Fits (node.bodySites around) := by
  have hsites : node.bodySites around = [] := by
    rw [Node.bodySites.eq_def]
    split
    · exact absurd rfl (hblock _)
    · exact absurd rfl (hprogram _)
    · rfl
  rw [hsites]
  rw [Node.blockFlow.eq_def] at h
  split at h
  · exact absurd rfl (hblock _)
  · exact absurd rfl (hprogram _)
  all_goals first
    | (cases h; done)
    | (obtain rfl := pure_eq_ok_iff.mp h; exact fits_bracketed hhead .nil)

/-- What is no block is no second branch. -/
theorem Node.fits_noBranch {node : Node} (hblock : ∀ body, node ≠ .block body)
    (hprogram : ∀ body, node ≠ .program body) {found : Option Opened}
    (h : node.elseFlow around.length head = .ok found) :
    found = none ∧ node.elseSites around = [] := by
  have hsites : node.elseSites around = [] := by
    rw [Node.elseSites.eq_def]
    split
    · exact absurd rfl (hblock _)
    · exact absurd rfl (hblock _)
    · exact absurd rfl (hprogram _)
    · exact absurd rfl (hprogram _)
    · rfl
  refine ⟨?_, hsites⟩
  rw [Node.elseFlow.eq_def] at h
  split at h
  · exact pure_eq_ok_iff.mp h
  all_goals first
    | exact absurd rfl (hblock _)
    | exact absurd rfl (hprogram _)
    | cases h

/-- A program in the place of a second branch is a block. -/
theorem Node.elseFlow_program (body : List Node) (depth : Nat) (head : String) :
    (Node.program body).elseFlow depth head = (Node.block body).elseFlow depth head := by
  rcases body with - | ⟨only, - | ⟨second, rest⟩⟩
  · rw [Node.elseFlow, Node.elseFlow] <;> simp
  · cases only <;> simp only [Node.elseFlow]
  · rw [Node.elseFlow, Node.elseFlow] <;> simp

theorem Node.elseSites_program (body : List Node) :
    (Node.program body).elseSites around = (Node.block body).elseSites around := by
  rcases body with - | ⟨only, - | ⟨second, rest⟩⟩
  · rw [Node.elseSites, Node.elseSites] <;> simp
  · rw [Node.elseSites, Node.elseSites]
  · rw [Node.elseSites, Node.elseSites] <;> simp

/-- The lines of a statement stand where they should, whatever is around it. -/
def Node.FlowFits (node : Node) : Prop :=
  ∀ {around : List (List Node)} {head : String} {o : Opened}, Text.IsOneLine head →
    node.flow around.length head = .ok o → o.Fits (node.sites around)

/-- The lines of some statements stand where they should, whatever is around them. -/
def EachFits (nodes : List Node) : Prop :=
  ∀ {around : List (List Node)} {previous : Option Node} {lines : List Line},
    linesEach around.length previous nodes = .ok lines →
    List.Forall₂ Line.Fits lines (eachSites around previous nodes)

/-- A block as a second branch; if it is nothing but a choice, that goes on in the same line. -/
theorem fits_branch {body : List Node} (heach : EachFits body)
    (honly : ∀ only ∈ body.head?, only.FlowFits) {found : Option Opened}
    (hhead : Text.IsOneLine head) (h : (Node.block body).elseFlow around.length head = .ok found) :
    ∃ o, found = some o ∧ o.Fits ((Node.block body).elseSites around) := by
  by_cases hlisted : ∃ given, body = [.unlisted given]
  · obtain ⟨given, rfl⟩ := hlisted
    rw [Node.elseFlow] at h
    cases h
  · by_cases hsingle : ∃ only, body = [only]
    · obtain ⟨only, rfl⟩ := hsingle
      have hfits : only.FlowFits := honly only rfl
      rw [Node.elseFlow] at h
      · rw [Node.elseSites]
        split at h
        · rename_i hchoice
          obtain ⟨o, ho, h⟩ := bind_eq_ok_iff.mp h
          obtain rfl := pure_eq_ok_iff.mp h
          rw [if_pos hchoice]
          exact ⟨o, rfl, hfits hhead ho⟩
        · rename_i hchoice
          obtain ⟨o, ho, h⟩ := bind_eq_ok_iff.mp h
          obtain rfl := pure_eq_ok_iff.mp h
          rw [if_neg hchoice]
          have hinner : o.Fits (only.sites ([only] :: around)) := hfits (by decide) ho
          have hclosed : List.Forall₂ Line.Fits (o.close ([only] :: around).length)
              (only.sites ([only] :: around) ++ [some ([only] :: around)]) := hinner.close
          exact ⟨_, rfl, fits_bracketed hhead hclosed⟩
      · exact fun given heq => hlisted ⟨given, by rw [heq]⟩
    · rw [Node.elseFlow] at h
      · obtain ⟨lines, hlines, h⟩ := bind_eq_ok_iff.mp h
        obtain rfl := pure_eq_ok_iff.mp h
        rw [Node.elseSites]
        · exact ⟨_, rfl, fits_bracketed hhead (heach hlines)⟩
        · exact fun only heq => hsingle ⟨only, heq⟩
      · exact fun given heq => hlisted ⟨given, heq⟩
      · exact fun only heq => hsingle ⟨only, heq⟩

end

mutual

/-- The lines of a statement stand where they should. -/
theorem Node.fits_flow : (node : Node) → node.IsPlain → ∀ {around : List (List Node)}
    {head : String} {o : Opened}, Text.IsOneLine head → node.flow around.length head = .ok o →
    o.Fits (node.sites around)
  | node, hplain, around, head, o, hhead, h => by
    cases node with
    | expressionStatement e =>
        rw [Node.flow] at h
        obtain ⟨text, htext, h⟩ := bind_eq_ok_iff.mp h
        obtain rfl := pure_eq_ok_iff.mp h
        have he := Node.isOneLine_statementText (hplain.child (by simp [Node.parts])) htext
        refine fits_one ?_
        simp only [Text.isOneLine_append]
        exact ⟨⟨hhead, he⟩, by decide⟩
    | block body =>
        rw [Node.flow] at h
        obtain ⟨lines, hlines, h⟩ := bind_eq_ok_iff.mp h
        obtain rfl := pure_eq_ok_iff.mp h
        rw [Node.sites]
        exact fits_bracketed hhead
          (fits_linesEach body (fun n hn => hplain.child hn) hlines)
    | returnStatement argument =>
        rw [Node.flow] at h
        split at h
        · obtain ⟨text, htext, h⟩ := bind_eq_ok_iff.mp h
          obtain rfl := pure_eq_ok_iff.mp h
          have he := Node.isOneLine_expressionText (hplain.child (by simp [Node.parts])) htext
          refine fits_one ?_
          simp only [Text.isOneLine_append]
          exact ⟨⟨⟨hhead, by decide⟩, he⟩, by decide⟩
        · obtain rfl := pure_eq_ok_iff.mp h
          exact fits_one (Text.isOneLine_append.mpr ⟨hhead, by decide⟩)
    | declaration kind declarators =>
        rw [Node.flow] at h
        obtain ⟨text, htext, h⟩ := bind_eq_ok_iff.mp h
        obtain rfl := pure_eq_ok_iff.mp h
        refine fits_one ?_
        simp only [Text.isOneLine_append]
        exact ⟨⟨hhead, Node.isOneLine_declarationText hplain htext⟩, by decide⟩
    | functionDeclaration name params body =>
        rw [Node.flow] at h
        obtain ⟨nameText, hname, h⟩ := bind_eq_ok_iff.mp h
        obtain ⟨rs, hrs, h⟩ := bind_eq_ok_iff.mp h
        obtain ⟨paramsText, hparams, h⟩ := bind_eq_ok_iff.mp h
        have hname' := Node.isOneLine_functionName (hplain.child (by simp [Node.parts])) hname
        have hrs' := isOneLine_renderedEach params
          (fun n hn => hplain.child (by simp [Node.parts, hn])) hrs
        rw [Node.sites]
        refine body.fits_blockFlow (hplain.child (by simp [Node.parts])) ?_ h
        simp only [Text.isOneLine_append]
        exact ⟨⟨⟨⟨⟨hhead, by decide⟩, hname'⟩, by decide⟩,
          Rendered.isOneLine_commaList hrs' hparams⟩, by decide⟩
    | ifStatement test consequent alternate =>
        rw [Node.flow] at h
        obtain ⟨testText, htest, h⟩ := bind_eq_ok_iff.mp h
        obtain ⟨first, hfirst, h⟩ := bind_eq_ok_iff.mp h
        obtain ⟨second, hsecond, h⟩ := bind_eq_ok_iff.mp h
        have htest' := Node.isOneLine_expressionText (hplain.child (by simp [Node.parts])) htest
        have hfits : first.Fits (consequent.bodySites around) := by
          refine consequent.fits_blockFlow (hplain.child (by simp [Node.parts])) ?_ hfirst
          simp only [Text.isOneLine_append]
          exact ⟨⟨⟨hhead, by decide⟩, htest'⟩, by decide⟩
        rw [Node.sites]
        rcases alternate.fits_elseFlow (hplain.child (by simp [Node.parts]))
          (Text.isOneLine_append.mpr ⟨hfits.last, by decide⟩) hsecond with
          ⟨rfl, hnone⟩ | ⟨o', rfl, hfits'⟩
        · obtain rfl := pure_eq_ok_iff.mp h
          rw [hnone, List.append_nil]
          exact hfits
        · obtain rfl := pure_eq_ok_iff.mp h
          exact ⟨List.rel_append hfits.lines hfits'.lines, hfits'.last⟩
    | whileStatement test body =>
        rw [Node.flow] at h
        obtain ⟨testText, htest, h⟩ := bind_eq_ok_iff.mp h
        have htest' := Node.isOneLine_expressionText (hplain.child (by simp [Node.parts])) htest
        rw [Node.sites]
        refine body.fits_blockFlow (hplain.child (by simp [Node.parts])) ?_ h
        simp only [Text.isOneLine_append]
        exact ⟨⟨⟨hhead, by decide⟩, htest'⟩, by decide⟩
    | forStatement start test update body =>
        rw [Node.flow] at h
        obtain ⟨startText, hstart, h⟩ := bind_eq_ok_iff.mp h
        obtain ⟨testText, htest, h⟩ := bind_eq_ok_iff.mp h
        obtain ⟨updateText, hupdate, h⟩ := bind_eq_ok_iff.mp h
        have hstart' :=
          Node.isOneLine_headerPart (hplain.child (by simp [Node.parts])) (by decide) hstart
        have htest' :=
          Node.isOneLine_headerPart (hplain.child (by simp [Node.parts])) (by decide) htest
        have hupdate' :=
          Node.isOneLine_headerPart (hplain.child (by simp [Node.parts])) (by decide) hupdate
        rw [Node.sites]
        refine body.fits_blockFlow (hplain.child (by simp [Node.parts])) ?_ h
        simp only [Text.isOneLine_append]
        exact ⟨⟨⟨⟨⟨⟨⟨hhead, by decide⟩, hstart'⟩, by decide⟩, htest'⟩, by decide⟩, hupdate'⟩,
          by decide⟩
    | forOf left right body =>
        rw [Node.flow] at h
        obtain ⟨leftText, hleft, h⟩ := bind_eq_ok_iff.mp h
        obtain ⟨rightText, hright, h⟩ := bind_eq_ok_iff.mp h
        have hleft' := Node.isOneLine_declarationText (hplain.child (by simp [Node.parts])) hleft
        have hright' := Node.isOneLine_expressionText (hplain.child (by simp [Node.parts])) hright
        rw [Node.sites]
        refine body.fits_blockFlow (hplain.child (by simp [Node.parts])) ?_ h
        simp only [Text.isOneLine_append]
        exact ⟨⟨⟨⟨⟨hhead, by decide⟩, hleft'⟩, by decide⟩, hright'⟩, by decide⟩
    | _ => exact Node.fits_expression rfl hplain hhead h

/-- The lines of some statements stand where they should. -/
theorem fits_linesEach : (nodes : List Node) → (∀ node ∈ nodes, node.IsPlain) →
    ∀ {around : List (List Node)} {previous : Option Node} {lines : List Line},
    linesEach around.length previous nodes = .ok lines →
    List.Forall₂ Line.Fits lines (eachSites around previous nodes)
  | [], _, around, previous, lines, h => by
    rw [linesEach, pure_eq_ok_iff] at h
    rw [h, eachSites]
    exact .nil
  | node :: rest, hplain, around, previous, lines, h => by
    obtain ⟨hnode, hrest⟩ := List.forall_mem_cons.mp hplain
    by_cases hend : node = .unlisted false
    · subst hend
      rw [linesEach, pure_eq_ok_iff] at h
      rw [h, eachSites]
      exact .nil
    · have hlines : linesEach around.length previous (node :: rest) = (do
          let first ← node.flow around.length ""
          let more ← linesEach around.length (some node) rest
          pure (separation previous node ++ first.close around.length ++ more)) := by
        rw [linesEach]
        exact fun h => hend h
      have hsites : eachSites around previous (node :: rest) =
          (separation previous node).map (fun _ => none) ++ (node.sites around ++ [some around]) ++
            eachSites around (some node) rest := by
        rw [eachSites]
        exact fun h => hend h
      rw [hlines] at h
      obtain ⟨first, hfirst, h⟩ := bind_eq_ok_iff.mp h
      obtain ⟨more, hmore, h⟩ := bind_eq_ok_iff.mp h
      obtain rfl := pure_eq_ok_iff.mp h
      rw [hsites]
      exact List.rel_append
        (List.rel_append (fits_separation previous node)
          (node.fits_flow hnode (by decide) hfirst).close)
        (fits_linesEach rest hrest hmore)

/-- The lines of a body stand where they should. -/
theorem Node.fits_blockFlow : (node : Node) → node.IsPlain → ∀ {around : List (List Node)}
    {head : String} {o : Opened}, Text.IsOneLine head → node.blockFlow around.length head = .ok o →
    o.Fits (node.bodySites around)
  | node, hplain, around, head, o, hhead, h => by
    cases node with
    | block body =>
        rw [Node.blockFlow] at h
        obtain ⟨lines, hlines, h⟩ := bind_eq_ok_iff.mp h
        obtain rfl := pure_eq_ok_iff.mp h
        rw [Node.bodySites]
        exact fits_bracketed hhead
          (fits_linesEach body (fun n hn => hplain.child hn) hlines)
    | program body =>
        rw [Node.blockFlow] at h
        obtain ⟨lines, hlines, h⟩ := bind_eq_ok_iff.mp h
        obtain rfl := pure_eq_ok_iff.mp h
        rw [Node.bodySites]
        exact fits_bracketed hhead
          (fits_linesEach body (fun n hn => hplain.child hn) hlines)
    | _ => exact Node.fits_noBody nofun nofun hhead h

/-- The lines of a second branch stand where they should. -/
theorem Node.fits_elseFlow : (node : Node) → node.IsPlain → ∀ {around : List (List Node)}
    {head : String} {found : Option Opened}, Text.IsOneLine head →
    node.elseFlow around.length head = .ok found →
    (found = none ∧ node.elseSites around = []) ∨
      ∃ o, found = some o ∧ o.Fits (node.elseSites around)
  | node, hplain, around, head, found, hhead, h => by
    cases node with
    | block body =>
        have heach : EachFits body := fits_linesEach body fun n hn => hplain.child hn
        have honly : ∀ only ∈ body.head?, only.FlowFits := by
          cases body with
          | nil => nofun
          | cons first rest =>
              intro only heq
              exact Option.some.inj heq ▸ first.fits_flow (hplain.child List.mem_cons_self)
        exact .inr (fits_branch heach honly hhead h)
    | program body =>
        have heach : EachFits body := fits_linesEach body fun n hn => hplain.child hn
        have honly : ∀ only ∈ body.head?, only.FlowFits := by
          cases body with
          | nil => nofun
          | cons first rest =>
              intro only heq
              exact Option.some.inj heq ▸ first.fits_flow (hplain.child List.mem_cons_self)
        rw [Node.elseFlow_program] at h
        rw [Node.elseSites_program]
        exact .inr (fits_branch heach honly hhead h)
    | _ => refine .inl (Node.fits_noBranch ?_ ?_ h) <;> nofun

end

/-! ### What is printed -/

/-- Lines that are all ended, one after the other. -/
def ended (lines : List String) : String := String.join (lines.map (· ++ "\n"))

/-- A line with its indentation, which is the unit as often as there are blocks around it. -/
def Site.indented (unit : String) (site : Site) (rest : String) : String :=
  String.join (List.replicate site.depth unit) ++ rest

/-- The rests of the lines of a program, whatever it is indented by. -/
structure HasLayout (body : List Node) (rests : List String) : Prop where
  /-- There is one for each line, … -/
  length : rests.length = (eachSites [] none body).length
  /-- … which is empty where statements are only set apart. -/
  apart : ∀ rest, (none, rest) ∈ (eachSites [] none body).zip rests → rest = ""
  /-- With any unit that is a text in one line, the lines that are printed are the rests with their
  indentation, … -/
  printed : ∀ unit, Text.IsOneLine unit → (Node.program body).print unit =
    .ok (ended (List.zipWith (Site.indented unit) (eachSites [] none body) rests))
  /-- … and none of these is broken into several. -/
  oneLine : ∀ unit, Text.IsOneLine unit →
    ∀ line ∈ List.zipWith (Site.indented unit) (eachSites [] none body) rests, Text.IsOneLine line

theorem intercalate_ended {lines : List String} (h : lines ≠ []) :
    "\n".intercalate lines ++ "\n" = ended lines := by
  induction lines with
  | nil => exact absurd rfl h
  | cons line rest ih =>
      cases rest with
      | nil => simp [ended]
      | cons next rest =>
          rw [String.intercalate_cons_of_ne_nil (List.cons_ne_nil _ _), String.append_assoc,
            ih (List.cons_ne_nil _ _)]
          simp [ended, String.append_assoc]

theorem isOneLine_join {pieces : List String} (h : ∀ piece ∈ pieces, Text.IsOneLine piece) :
    Text.IsOneLine (String.join pieces) := by
  induction pieces with
  | nil => decide
  | cons piece rest ih =>
      obtain ⟨hpiece, hrest⟩ := List.forall_mem_cons.mp h
      rw [String.join_cons, Text.isOneLine_append]
      exact ⟨hpiece, ih hrest⟩

/-- Lines that stand where they should are written out as the rests of their sites. -/
theorem map_render {lines : List Line} {sites : List Site} (h : List.Forall₂ Line.Fits lines sites)
    (unit : String) : lines.map (Line.render unit) =
      List.zipWith (Site.indented unit) sites (lines.map Line.text) := by
  induction h with
  | nil => rfl
  | cons hfirst hrest ih =>
      rw [List.map_cons, List.map_cons, List.zipWith_cons_cons, ih, Site.indented, ← hfirst.depth]
      rfl

theorem isOneLine_of_fits {lines : List Line} {sites : List Site}
    (h : List.Forall₂ Line.Fits lines sites) : ∀ l ∈ lines, Text.IsOneLine l.text := by
  induction h with
  | nil => nofun
  | cons hfirst hrest ih => exact List.forall_mem_cons.mpr ⟨hfirst.text, ih⟩

/-- Statements that are there have lines. -/
theorem linesEach_ne_nil {body : List Node} (hlisted : ∀ given, Node.unlisted given ∉ body)
    (hne : body ≠ []) {depth : Nat} {lines : List Line}
    (h : linesEach depth none body = .ok lines) : lines ≠ [] := by
  cases body with
  | nil => exact absurd rfl hne
  | cons node rest =>
      have hnode : ∀ given, node ≠ .unlisted given := fun given heq =>
        hlisted given (heq ▸ List.mem_cons_self)
      rw [linesEach_cons hnode] at h
      obtain ⟨first, -, h⟩ := bind_eq_ok_iff.mp h
      obtain ⟨more, -, h⟩ := bind_eq_ok_iff.mp h
      obtain rfl := pure_eq_ok_iff.mp h
      simp [Opened.close]

/-- **A program is printed in the same lines whatever the unit of indentation is.**  The mark for
what is no list stands for a whole list, and so it is no member of one. -/
theorem exists_layout {body : List Node} (hlisted : ∀ given, Node.unlisted given ∉ body)
    (hplain : (Node.program body).IsPlain)
    (hprintable : ∃ unit text, (Node.program body).print unit = .ok text) :
    ∃ rests, HasLayout body rests := by
  have hbody : ∀ given, body ≠ [.unlisted given] := fun given heq =>
    hlisted given (heq ▸ List.mem_singleton_self _)
  obtain ⟨unit, text, hprint⟩ := hprintable
  rw [print_program hbody] at hprint
  obtain ⟨lines, hlines⟩ : ∃ lines, linesEach 0 none body = .ok lines := by
    cases hlines : linesEach 0 none body with
    | ok lines => exact ⟨lines, rfl⟩
    | error fault => rw [hlines] at hprint; cases hprint
  have hfits : List.Forall₂ Line.Fits lines (eachSites [] none body) :=
    fits_linesEach body (fun n hn => hplain.child hn) hlines
  refine ⟨lines.map Line.text, by rw [List.length_map, hfits.length_eq], ?_, ?_, ?_⟩
  · intro rest hrest
    have hrests : List.Forall₂ (fun site rest => site = none → rest = "")
        (eachSites [] none body) (lines.map Line.text) :=
      List.forall₂_map_right_iff.mpr (hfits.flip.imp fun _ _ hfit => hfit.apart)
    exact List.forall₂_zip hrests hrest rfl
  · intro unit hunit
    rw [print_program hbody, hlines, ← map_render hfits]
    refine congrArg Except.ok ?_
    by_cases hne : body = []
    · subst hne
      obtain rfl := pure_eq_ok_iff.mp hlines
      rfl
    · have hsome := linesEach_ne_nil hlisted hne hlines
      rw [if_neg (by simpa using hne)]
      exact intercalate_ended (by simpa using hsome)
  · intro unit hunit line hline
    rw [← map_render hfits] at hline
    obtain ⟨l, hl, rfl⟩ := List.mem_map.mp hline
    refine Text.isOneLine_append.mpr ⟨isOneLine_join fun piece hpiece => ?_, ?_⟩
    · rw [List.eq_of_mem_replicate hpiece]
      exact hunit
    · exact isOneLine_of_fits hfits l hl

/-- A choice and a function, between which a line is left free. -/
theorem exists_layout_small :
    ∃ rests, HasLayout [.ifStatement (.identifier (.text "x"))
      (.block [.expressionStatement (.identifier (.text "y"))]) .absent,
      .functionDeclaration .absent [] (.block [])] rests := by
  have hleaf : ∀ {node : Node}, node.HasPlainTexts → node.parts = [] → node.IsPlain := by
    intro node htexts hparts
    refine everywhere_iff.mpr ⟨htexts, ?_⟩
    show ∀ child ∈ node.parts, _
    rw [hparts]
    nofun
  have hname : ∀ s : String, Text.IsOneLine s → (Node.identifier (.text s)).IsPlain := by
    intro s hs
    exact hleaf (fun t heq => Value.text.inj heq ▸ hs) rfl
  have hstatement : (Node.expressionStatement (.identifier (.text "y"))).IsPlain :=
    everywhere_iff.mpr ⟨trivial, List.forall_mem_singleton.mpr (hname "y" (by decide))⟩
  have hblock : (Node.block [.expressionStatement (.identifier (.text "y"))]).IsPlain :=
    everywhere_iff.mpr ⟨trivial, List.forall_mem_singleton.mpr hstatement⟩
  have hchoice : (Node.ifStatement (.identifier (.text "x"))
      (.block [.expressionStatement (.identifier (.text "y"))]) .absent).IsPlain :=
    everywhere_iff.mpr ⟨trivial, List.forall_mem_cons.mpr ⟨hname "x" (by decide),
      List.forall_mem_cons.mpr ⟨hblock, List.forall_mem_singleton.mpr (hleaf trivial rfl)⟩⟩⟩
  have hfunction : (Node.functionDeclaration .absent [] (.block [])).IsPlain :=
    everywhere_iff.mpr ⟨trivial, List.forall_mem_cons.mpr ⟨hleaf trivial rfl,
      List.forall_mem_singleton.mpr (hleaf trivial rfl)⟩⟩
  exact exists_layout (by simp) (everywhere_iff.mpr ⟨trivial, List.forall_mem_cons.mpr
    ⟨hchoice, List.forall_mem_singleton.mpr hfunction⟩⟩) ⟨"  ", _, rfl⟩

/-! ### A line feed in the word of a declaration -/

/-- The name or the operator of a node has no line feed. -/
def Node.HasPlainName : Node → Prop
  | .identifier value | .unary value _ | .update value _ _ | .binary value _ _ | .logical value _ _
  | .assignment value _ _ => value.IsOneLine
  | _ => True

/-- A declaration in a block; its word ends with a line feed. -/
def brokenBody : List Node :=
  [.block [.declaration (.text "const\n") [.declarator (.identifier (.text "x")) .absent]]]

theorem count_ended {lines : List String} (h : ∀ line ∈ lines, Text.IsOneLine line) :
    (ended lines).toList.count '\n' = lines.length := by
  induction lines with
  | nil => rfl
  | cons line rest ih =>
      obtain ⟨hline, hrest⟩ := List.forall_mem_cons.mp h
      have hcons : ended (line :: rest) = line ++ "\n" ++ ended rest := by simp [ended]
      rw [hcons, String.toList_append, String.toList_append, List.count_append, List.count_append,
        List.count_eq_zero.mpr hline, ih hrest, List.length_cons]
      simp [Nat.add_comm]

/-- **The word of a declaration can break a line**, and what is behind it is not indented. -/
theorem not_layout_of_brokenBody :
    Everywhere Node.HasPlainName (.program brokenBody) ∧
    (Node.program brokenBody).print "  " = .ok (ended ["\x7b", "  const", " x;", "\x7d"]) ∧
    ¬ ∃ rests, HasLayout brokenBody rests := by
  have hname : Everywhere Node.HasPlainName (.identifier (.text "x")) :=
    everywhere_iff.mpr ⟨fun s heq => Value.text.inj heq ▸ by decide, nofun⟩
  have habsent : Everywhere Node.HasPlainName .absent := everywhere_iff.mpr ⟨trivial, nofun⟩
  have hdeclarator : Everywhere Node.HasPlainName (.declarator (.identifier (.text "x")) .absent) :=
    everywhere_iff.mpr ⟨trivial, List.forall_mem_cons.mpr
      ⟨hname, List.forall_mem_singleton.mpr habsent⟩⟩
  have hdeclaration : Everywhere Node.HasPlainName (.declaration (.text "const\n")
      [.declarator (.identifier (.text "x")) .absent]) :=
    everywhere_iff.mpr ⟨trivial, List.forall_mem_singleton.mpr hdeclarator⟩
  refine ⟨?_, by rfl, ?_⟩
  · exact everywhere_iff.mpr ⟨trivial, List.forall_mem_singleton.mpr
      (everywhere_iff.mpr ⟨trivial, List.forall_mem_singleton.mpr hdeclaration⟩)⟩
  · rintro ⟨rests, hlayout⟩
    have hprint : (Node.program brokenBody).print "" =
        .ok (ended ["\x7b", "const", " x;", "\x7d"]) := by rfl
    rw [hlayout.printed "" (by decide)] at hprint
    have hcount := count_ended (hlayout.oneLine "" (by decide))
    rw [Except.ok.inj hprint, List.length_zipWith, hlayout.length, Nat.min_self] at hcount
    exact absurd hcount (by decide)

end PhpMigration.JavaScript
