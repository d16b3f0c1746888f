/-
What lowering puts into bodies.

Whatever is lowered, a program or a block of the result holds statements only: nodes that are none
are wrapped when they become the members of a body, and what is not there is left out
(`isStatement_of_mem_asBody`).  This needs no well-sorted tree, because every body is made in that
one way.
-/
import PhpMigration.Proofs.Conversion.Lowerable
import PhpMigration.Proofs.Lowering.Walk

namespace PhpMigration.Lowering

open PhpMigration.Core (Node)

/-! ### Results -/

/-- If there is a result, it is a good one. -/
def Yields {ε α : Type} (good : α → Prop) (r : Except ε α) : Prop := ∀ a, r = .ok a → good a

namespace Yields

variable {ε α β : Type} {good : α → Prop} {good' : β → Prop} {r : Except ε α}

theorem error (e : ε) : Yields good (.error e : Except ε α) := fun _ h => nomatch h

theorem ok {a : α} (h : good a) : Yields good (.ok a : Except ε α) := by
  intro b hb
  cases hb
  exact h

theorem bind {f : α → Except ε β} (h : Yields good r) (k : ∀ a, good a → Yields good' (f a)) :
    Yields good' (r >>= f) := by
  cases r with
  | error e => exact error e
  | ok a => exact k a (h a rfl)

/-- A step whose result does not matter. -/
theorem bind_any {f : α → Except ε β} (k : ∀ a, Yields good' (f a)) : Yields good' (r >>= f) :=
  bind (fun _ _ => trivial : Yields (fun _ => True) r) fun a _ => k a

end Yields

/-! ### Bodies -/

/-- A body holds statements only. -/
def HoldsStatements : JavaScript.Node → Prop
  | .program body | .block body => ∀ s ∈ body, s.isStatement = true
  | _ => True

theorem isStatement_of_mem_asBody {nodes : List JavaScript.Node} :
    ∀ s ∈ asBody nodes, s.isStatement = true := by
  intro s hs
  obtain ⟨hs, hpresent⟩ := List.mem_filter.mp hs
  obtain ⟨j, -, rfl⟩ := List.mem_map.mp hs
  unfold asStatement at hpresent ⊢
  split
  · rename_i h
    rw [if_pos h] at hpresent
    rw [hpresent] at h
    exact h
  · rfl

/-- All bodies in the tree hold statements only. -/
abbrev IsTidy : JavaScript.Node → Prop := Everywhere HoldsStatements

section

variable {j : JavaScript.Node} {js : List JavaScript.Node}

/-- A node that is no body is tidy if its parts are. -/
theorem isTidy_of_parts (hnode : HoldsStatements j) (h : ∀ part ∈ j.parts, IsTidy part) :
    IsTidy j := everywhere_iff.mpr ⟨hnode, h⟩

theorem isTidy_leaf (hnode : HoldsStatements j) (hparts : j.parts = []) : IsTidy j :=
  isTidy_of_parts hnode (by simp [hparts])

theorem isTidy_one {a : JavaScript.Node} (hnode : HoldsStatements j) (hparts : j.parts = [a])
    (ha : IsTidy a) : IsTidy j :=
  isTidy_of_parts hnode (by simpa [hparts] using ha)

theorem isTidy_two {a b : JavaScript.Node} (hnode : HoldsStatements j) (hparts : j.parts = [a, b])
    (ha : IsTidy a) (hb : IsTidy b) : IsTidy j :=
  isTidy_of_parts hnode (by simpa [hparts] using ⟨ha, hb⟩)

theorem isTidy_three {a b c : JavaScript.Node} (hnode : HoldsStatements j)
    (hparts : j.parts = [a, b, c]) (ha : IsTidy a) (hb : IsTidy b) (hc : IsTidy c) : IsTidy j :=
  isTidy_of_parts hnode (by simpa [hparts] using ⟨ha, hb, hc⟩)

theorem isTidy_asStatement (h : IsTidy j) : IsTidy (asStatement j) := by
  unfold asStatement
  split
  · exact h
  · exact isTidy_one trivial rfl h

theorem isTidy_of_mem_asBody (h : ∀ j ∈ js, IsTidy j) : ∀ s ∈ asBody js, IsTidy s := by
  intro s hs
  obtain ⟨j, hj, rfl⟩ := List.mem_map.mp (List.mem_filter.mp hs).1
  exact isTidy_asStatement (h j hj)

theorem isTidy_program (h : ∀ j ∈ js, IsTidy j) : IsTidy (.program (asBody js)) :=
  isTidy_of_parts isStatement_of_mem_asBody (isTidy_of_mem_asBody h)

theorem isTidy_block (h : ∀ j ∈ js, IsTidy j) : IsTidy (.block (asBody js)) :=
  isTidy_of_parts isStatement_of_mem_asBody (isTidy_of_mem_asBody h)

theorem isTidy_absent : IsTidy .absent := isTidy_leaf trivial rfl

theorem isTidy_identifier (name : Value) : IsTidy (.identifier name) := isTidy_leaf trivial rfl

theorem isTidy_namedMember (h : IsTidy j) (name : Value) : IsTidy (namedMember j name) :=
  isTidy_two trivial rfl h (isTidy_identifier name)

theorem isTidy_placeholder (kind : String) : IsTidy (placeholder kind) :=
  isTidy_one trivial rfl (isTidy_leaf trivial rfl)

theorem isTidy_call (h : IsTidy j) (hs : ∀ j ∈ js, IsTidy j) : IsTidy (.call j js) :=
  isTidy_of_parts trivial (List.forall_mem_cons.mpr ⟨h, hs⟩)

theorem isTidy_logCall (h : IsTidy j) : IsTidy (logCall j) := by
  refine isTidy_one trivial rfl (isTidy_call (isTidy_namedMember (isTidy_identifier _) _) ?_)
  intro part hpart
  split at hpart
  · rwa [List.mem_singleton.mp hpart]
  · exact absurd hpart List.not_mem_nil

theorem isTidy_joinEcho (h : ∀ j ∈ js, IsTidy j) : IsTidy (joinEcho js) := by
  unfold joinEcho
  suffices ∀ joined : JavaScript.Node, IsTidy joined →
      IsTidy (js.foldl (fun joined value =>
        if joined.isPresent then .binary (.text "+") joined value else value) joined) from
    this _ isTidy_absent
  induction js with
  | nil => exact fun joined hjoined => hjoined
  | cons value rest ih =>
      intro joined hjoined
      have hvalue := h value List.mem_cons_self
      refine ih (fun j hj => h j (List.mem_cons_of_mem _ hj)) _ ?_
      show IsTidy (if joined.isPresent then .binary (.text "+") joined value else value)
      split
      · exact isTidy_two trivial rfl hjoined hvalue
      · exact hvalue

theorem isTidy_asExpression (h : ∀ j ∈ js, IsTidy j) : IsTidy (asExpression js) := by
  rcases js with _ | ⟨only, _ | ⟨second, rest⟩⟩
  · exact isTidy_absent
  · exact h only List.mem_cons_self
  · exact isTidy_of_parts trivial h

theorem isTidy_numbered (h : IsTidy j) (index : Nat) : IsTidy (numbered index j) :=
  isTidy_two trivial rfl (isTidy_leaf trivial rfl) h

end

/-! ### Lowering -/

/-- An entry with a key becomes the property that it is lowered to. -/
theorem lowerItems_entry {key value : Node} (index : Nat) (rest : List Node)
    (hkey : key ≠ .absent) :
    lowerItems index (.entry key value :: rest) =
      lower (.entry key value) >>= fun j => lowerItems index rest >>= fun js => pure (j :: js) := by
  rw [lowerItems, lower]
  · simp only [bind_assoc, pure_bind]
  · exact hkey

section

variable {nodes : List Node}

theorem yields_lowerEach (h : ∀ node ∈ nodes, Yields IsTidy (lower node)) :
    Yields (fun js => ∀ j ∈ js, IsTidy j) (lowerEach nodes) := by
  induction nodes with
  | nil =>
      rw [lowerEach]
      exact .ok fun j hj => absurd hj List.not_mem_nil
  | cons node rest ih =>
      obtain ⟨hnode, hrest⟩ := List.forall_mem_cons.mp h
      rw [lowerEach_cons]
      refine hnode.bind fun j hj => (ih hrest).bind fun js hjs => .ok ?_
      exact List.forall_mem_cons.mpr ⟨hj, hjs⟩

theorem yields_lowerParameters (h : ∀ node ∈ nodes, Yields IsTidy (lower node)) :
    Yields (fun js => ∀ j ∈ js, IsTidy j) (lowerParameters nodes) := by
  induction nodes with
  | nil =>
      rw [lowerParameters]
      exact .ok fun j hj => absurd hj List.not_mem_nil
  | cons node rest ih =>
      obtain ⟨hnode, hrest⟩ := List.forall_mem_cons.mp h
      rw [lowerParameters]
      refine .bind_any fun _ => hnode.bind fun j hj => (ih hrest).bind fun js hjs => .ok ?_
      exact List.forall_mem_cons.mpr ⟨hj, hjs⟩

/-- The value of an entry without a key is lowered like the entry. -/
theorem yields_value_of_entry {value : Node} (h : Yields IsTidy (lower (.entry .absent value))) :
    Yields IsTidy (lower value) := by
  intro j hj
  have hentry : lower (.entry .absent value) = .ok (.objectProperty .absent j true) := by
    rw [lower, lower, hj]
    rfl
  exact (everywhere_iff.mp (h _ hentry)).2 j (by simp [HasChildren.children, JavaScript.Node.parts])

theorem yields_lowerItems (h : ∀ item ∈ nodes, Yields IsTidy (lower item)) (index : Nat) :
    Yields (fun js => ∀ j ∈ js, IsTidy j) (lowerItems index nodes) := by
  induction nodes generalizing index with
  | nil =>
      rw [lowerItems]
      exact .ok fun j hj => absurd hj List.not_mem_nil
  | cons item rest ih =>
      obtain ⟨hitem, hrest⟩ := List.forall_mem_cons.mp h
      have hcons {j : JavaScript.Node} (hj : IsTidy j) (n : Nat) :
          Yields (fun js => ∀ j ∈ js, IsTidy j) (lowerItems n rest >>= fun js => pure (j :: js)) :=
        (ih hrest n).bind fun js hjs => .ok (List.forall_mem_cons.mpr ⟨hj, hjs⟩)
      by_cases hentry : ∃ key value, item = .entry key value
      · obtain ⟨key, value, rfl⟩ := hentry
        by_cases habsent : key = .absent
        · subst habsent
          rw [lowerItems]
          exact (yields_value_of_entry hitem).bind fun j hj => hcons (isTidy_numbered hj index) _
        · rw [lowerItems_entry index rest habsent]
          exact hitem.bind fun j hj => hcons hj index
      · have hplain : ∀ key value, item ≠ .entry key value :=
          fun key value heq => hentry ⟨key, value, heq⟩
        by_cases habsent : item = .absent
        · subst habsent
          rw [lowerItems]
          exact .error _
        · rw [lowerItems_plain index rest hplain habsent]
          split
          · exact .error _
          · exact hitem.bind fun j hj => hcons (isTidy_numbered hj index) _

theorem yields_loopBinding {source : JavaScript.Node} (key value : Node) (h : IsTidy source) :
    Yields (fun loop => IsTidy loop.1 ∧ IsTidy loop.2) (loopBinding source key value) := by
  unfold loopBinding
  split
  · refine .bind_any fun k => .bind_any fun v => .ok ⟨?_, ?_⟩
    · refine isTidy_call (isTidy_namedMember (isTidy_identifier _) _) fun j hj => ?_
      rwa [List.mem_singleton.mp hj]
    · exact isTidy_two trivial rfl (isTidy_identifier _) (isTidy_identifier _)
  · exact .bind_any fun k => .ok ⟨h, isTidy_identifier _⟩
  · exact .bind_any fun v => .ok ⟨h, isTidy_identifier _⟩
  · exact .ok ⟨h, isTidy_identifier _⟩

/-- **In what a tree is lowered to, every program and every block holds statements only.** -/
theorem isTidy_of_lower (node : Node) : Yields IsTidy (lower node) := by
  induction node using children_induction with
  | step node ih =>
  have hpart : ∀ part ∈ node.parts, Yields IsTidy (lower part) := ih
  have hnodes {nodes : List Node} (h : ∀ n ∈ nodes, n ∈ node.parts) :
      Yields (fun js => ∀ j ∈ js, IsTidy j) (lowerEach nodes) :=
    yields_lowerEach fun n hn => hpart n (h n hn)
  cases node with
  | absent => rw [lower]; exact .ok isTidy_absent
  | stray | unlisted => rw [lower]; exact .error _
  | string | number | boolean | null | name => rw [lower]; exact .ok (isTidy_leaf trivial rfl)
  | «variable» => rw [lower]; exact .bind_any fun _ => .ok (isTidy_identifier _)
  | program nodes =>
      rw [lower]
      exact (hnodes (fun _ hn => hn)).bind fun js hjs => .ok (isTidy_program hjs)
  | echo nodes =>
      rw [lower]
      exact (hnodes (fun _ hn => hn)).bind fun js hjs => .ok (isTidy_logCall (isTidy_joinEcho hjs))
  | print e =>
      rw [lower]
      exact (hpart e (by simp [Node.parts])).bind fun j hj => .ok (isTidy_logCall hj)
  | expressionStatement e =>
      rw [lower]
      exact (hpart e (by simp [Node.parts])).bind fun j hj => .ok (isTidy_asStatement hj)
  | returnValue e | unary _ e =>
      rw [lower]
      exact (hpart e (by simp [Node.parts])).bind fun j hj => .ok (isTidy_one trivial rfl hj)
  | stepBefore _ e | stepBehind _ e =>
      rw [lower]
      refine .bind_any fun _ => (hpart e (by simp [Node.parts])).bind fun j hj => .ok ?_
      exact isTidy_one trivial rfl hj
  | parameter name default =>
      rw [lower]
      refine .bind_any fun name => ?_
      split
      · refine (hpart default (by simp [Node.parts])).bind fun j hj => .ok ?_
        exact isTidy_two trivial rfl (isTidy_identifier _) hj
      · exact .ok (isTidy_identifier _)
  | function name parameters body =>
      rw [lower]
      refine (yields_lowerParameters fun p hp => hpart p (by simp [Node.parts, hp])).bind
        fun ps hps => (hnodes (by simp +contextual [Node.parts])).bind fun js hjs => .ok ?_
      refine isTidy_of_parts trivial fun part hmem => ?_
      simp only [JavaScript.Node.parts, List.mem_cons, List.mem_append, List.mem_nil_iff,
        or_false, or_assoc] at hmem
      rcases hmem with rfl | hmem | rfl
      · exact isTidy_identifier _
      · exact hps part hmem
      · exact isTidy_block hjs
  | ifElse test body alternate =>
      cases alternate with
      | none =>
          rw [lower]
          refine (hpart test (by simp [Node.parts])).bind fun t ht =>
            (hnodes (by simp +contextual [Node.parts])).bind fun js hjs => .ok ?_
          exact isTidy_three trivial rfl ht (isTidy_block hjs) isTidy_absent
      | some alternate =>
          rw [lower]
          refine (hnodes (by simp +contextual [Node.parts])).bind fun as has =>
            (hpart test (by simp [Node.parts])).bind fun t ht =>
              (hnodes (by simp +contextual [Node.parts])).bind fun js hjs => .ok ?_
          exact isTidy_three trivial rfl ht (isTidy_block hjs) (isTidy_block has)
  | whileLoop test body =>
      rw [lower]
      refine (hpart test (by simp [Node.parts])).bind fun t ht =>
        (hnodes (by simp +contextual [Node.parts])).bind fun js hjs => .ok ?_
      exact isTidy_two trivial rfl ht (isTidy_block hjs)
  | forLoop start test update body =>
      rw [lower]
      refine (hnodes (by simp +contextual [Node.parts])).bind fun ss hss =>
        (hnodes (by simp +contextual [Node.parts])).bind fun ts hts =>
          (hnodes (by simp +contextual [Node.parts])).bind fun us hus =>
            (hnodes (by simp +contextual [Node.parts])).bind fun js hjs => .ok ?_
      refine isTidy_of_parts trivial fun part hmem => ?_
      simp only [JavaScript.Node.parts, List.mem_cons, List.mem_nil_iff, or_false] at hmem
      rcases hmem with rfl | rfl | rfl | rfl
      · exact isTidy_asExpression hss
      · exact isTidy_asExpression hts
      · exact isTidy_asExpression hus
      · exact isTidy_block hjs
  | foreach source key value body =>
      rw [lower]
      refine .bind_any fun foreign => ?_
      split
      · exact .ok (isTidy_placeholder _)
      · refine (hpart source (by simp [Node.parts])).bind fun s hs =>
          (yields_loopBinding key value hs).bind fun loop hloop =>
            (hnodes (by simp +contextual [Node.parts])).bind fun js hjs => .ok ?_
        have htarget := isTidy_two (j := .declarator loop.2 .absent) trivial rfl hloop.2 isTidy_absent
        refine isTidy_three trivial rfl ?_ hloop.1 (isTidy_block hjs)
        exact isTidy_one trivial rfl htarget
  | assign left right =>
      rw [lower]
      refine .bind_any fun _ => (hpart left (by simp [Node.parts])).bind fun l hl =>
        (hpart right (by simp [Node.parts])).bind fun r hr => .ok ?_
      exact isTidy_two trivial rfl hl hr
  | entry left right | offsetLookup left right =>
      rw [lower]
      refine (hpart left (by simp [Node.parts])).bind fun l hl =>
        (hpart right (by simp [Node.parts])).bind fun r hr => .ok ?_
      exact isTidy_two trivial rfl hl hr
  | binary operator left right =>
      rw [lower]
      refine (hpart left (by simp [Node.parts])).bind fun l hl =>
        (hpart right (by simp [Node.parts])).bind fun r hr => ?_
      dsimp only
      split
      · exact .ok (isTidy_two trivial rfl hl hr)
      · exact .ok (isTidy_two trivial rfl hl hr)
  | array items =>
      rw [lower]
      refine .bind_any fun keyed => ?_
      split
      · exact (yields_lowerItems hpart 0).bind fun js hjs => .ok (isTidy_of_parts trivial hjs)
      · exact (hnodes (fun _ hn => hn)).bind fun js hjs => .ok (isTidy_of_parts trivial hjs)
  | call callee arguments =>
      rw [lower]
      refine (hpart callee (by simp [Node.parts])).bind fun c hc =>
        (hnodes (by simp +contextual [Node.parts])).bind fun js hjs => .ok ?_
      exact isTidy_call hc hjs
  | methodCall object | propertyLookup object =>
      rw [lower]
      exact (hpart object (by simp [Node.parts])).bind fun j hj => .ok (isTidy_namedMember hj _)
  | ternary test consequent alternate =>
      rw [lower]
      refine (hpart test (by simp [Node.parts])).bind fun t ht =>
        (hpart consequent (by simp [Node.parts])).bind fun c hc =>
          (hpart alternate (by simp [Node.parts])).bind fun a ha => .ok ?_
      exact isTidy_three trivial rfl ht hc ha
  | unsupported kind =>
      rw [lower]
      split
      · exact .ok (isTidy_leaf trivial rfl)
      · split
        · exact .error _
        · exact .ok (isTidy_placeholder kind)

end

end PhpMigration.Lowering
