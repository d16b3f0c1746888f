/-
An array with keys becomes an object, which holds every element of it under a name of its own,
unless a key is a number that an element without a key is given.

An element without a key gets one from its place.  PHP gives it the number behind the largest
integer key before it, and the object expression the number of elements without a key before it,
whatever keys there are.  So the two agree on which elements have different keys as long as no
written key is one of the numbers that are handed out (`ArrayItem.keepsElements`).
-/
import Mathlib.Algebra.Group.Int.Defs
import Mathlib.Algebra.Group.Nat.Defs
import Mathlib.Data.List.Forall2
import Mathlib.Data.List.Nodup
import PhpMigration.Proofs.Conversion.Choice
import PhpMigration.Proofs.Conversion.Grouping
import PhpMigration.Proofs.Text.Digits

namespace PhpMigration

namespace JavaScript

/-- Every number up to this one is a double, so that its name is made of its digits. -/
def exactBound : Nat := 2 ^ 53

/-- The name of a property whose key is written as a text or as a number. -/
def Node.propertyName? : Node → Option String
  | .objectProperty (.stringLiteral (.text s)) _ false => some s
  | .objectProperty (.numericLiteral (.number (.int n))) _ false =>
    if 0 ≤ n ∧ n ≤ exactBound then some (toString n) else none
  | _ => none

/-- The value of a property. -/
def Node.propertyValue? : Node → Option Node
  | .objectProperty _ value _ => some value
  | _ => none

end JavaScript

namespace Php

/-! ### Keys -/

/-- A key as an array has it. -/
inductive ArrayKey where
  | integer (n : Int)
  | text (s : String)
  deriving DecidableEq, Repr

/-- The least integer and the one behind the greatest. -/
def integerRange : Int × Int := (-2 ^ 63, 2 ^ 63)

/-- The integer that a text denotes if it is used as a key: the text is just how the integer is
written. -/
def integerKey? (s : String) : Option Int :=
  let n : Int := match s.toList with
    | '-' :: digits => -Nat.ofDigitChars 10 digits 0
    | digits => Nat.ofDigitChars 10 digits 0
  if toString n = s ∧ integerRange.1 ≤ n ∧ n < integerRange.2 then some n else none

/-- A key as it is written: a text or a number. -/
inductive LiteralKey where
  | text (s : String)
  | number (n : Nat)
  deriving DecidableEq, Repr

namespace LiteralKey

/-- The key as the grammar builds it. -/
def node : LiteralKey → Node
  | text s => .text s
  | number n => .number (.int n)

/-- The key that an array has for it. -/
def arrayKey : LiteralKey → ArrayKey
  | text s => match integerKey? s with
    | some n => .integer n
    | none => .text s
  | number n => .integer n

/-- The name of the property that it becomes. -/
def name : LiteralKey → String
  | text s => s
  | number n => toString n

/-- What the key comes to. -/
def coreNode : LiteralKey → Core.Node
  | text s => .string (.text s)
  | number n => .number (.number (.int n))

/-- The key of the property that it becomes. -/
def property : LiteralKey → JavaScript.Node
  | text s => .stringLiteral (.text s)
  | number n => .numericLiteral (.number (.int n))

theorem node_ne_absent (key : LiteralKey) : key.node ≠ .absent := by
  cases key <;> nofun

theorem coreNode_ne_absent (key : LiteralKey) : key.coreNode ≠ .absent := by
  cases key <;> nofun

theorem toCore_node (key : LiteralKey) : key.node.toCore = .ok key.coreNode := by
  cases key <;> rw [node, Node.toCore] <;> rfl

theorem lower_coreNode (key : LiteralKey) : Lowering.lower key.coreNode = .ok key.property := by
  cases key <;> rfl

theorem isComputedKey_property (key : LiteralKey) :
    Lowering.isComputedKey key.property = false := by
  cases key <;> rfl

/-- The key is a text, or a number that is a double. -/
def isExact : LiteralKey → Bool
  | text _ => true
  | number n => n ≤ JavaScript.exactBound

end LiteralKey

/-- An element of an array with its key, if it has one. -/
structure ArrayItem where
  key? : Option LiteralKey
  value : Node

/-- The node may be the value of an element: it is there, and it is of no construct whose name is
that of an element with a key. -/
def Node.isValue : Node → Bool
  | .absent => false
  | node => Text.lower node.name ≠ "entry"

namespace ArrayItem

/-- The element as the grammar builds it. -/
def node (item : ArrayItem) : Node :=
  .arrayElement ((item.key?.map LiteralKey.node).getD .absent) item.value

/-- The key that an element is given behind a largest integer key. -/
def nextKey (largest : Option Int) : ArrayKey :=
  match largest with
  | some n => .integer (n + 1)
  | none => .integer 0

/-- The largest integer key when there is one key more. -/
def withKey (largest : Option Int) : ArrayKey → Option Int
  | .integer n => some (max (largest.getD n) n)
  | .text _ => largest

/-- The keys that the elements have in the array, behind a largest integer key. -/
def arrayKeys (largest : Option Int) : List ArrayItem → List ArrayKey
  | [] => []
  | item :: rest =>
    let key := (item.key?.map LiteralKey.arrayKey).getD (nextKey largest)
    key :: arrayKeys (withKey largest key) rest

/-- The names that the elements have in the object; those without a key are numbered from
`index`. -/
def propertyNames (index : Nat) : List ArrayItem → List String
  | [] => []
  | item :: rest =>
    match item.key? with
    | some key => key.name :: propertyNames index rest
    | none => toString index :: propertyNames (index + 1) rest

/-- The keys that are written. -/
def writtenKeys (items : List ArrayItem) : List LiteralKey := items.filterMap ArrayItem.key?

/-- How many elements have no key. -/
def countKeyless (items : List ArrayItem) : Nat := items.countP fun item => item.key?.isNone

end ArrayItem

/-! ### Names -/

/-- A number up to the bound is an integer key, whichever way it is written. -/
theorem integerKey?_toString {n : Nat} (h : n ≤ JavaScript.exactBound) :
    integerKey? (toString n) = some (n : Int) := by
  have hvalue := Text.ofDigitChars_toString n
  have hminus : ∀ digits, (toString n).toList ≠ '-' :: digits := by
    intro digits hcons
    exact @Text.toString_head_ne '-' n (by decide) (by rw [hcons]; rfl)
  have hrange : integerRange.1 ≤ n ∧ (n : Int) < integerRange.2 := by
    unfold integerRange
    unfold JavaScript.exactBound at h
    omega
  unfold integerKey?
  split
  · exact absurd ‹_› (hminus _)
  · rw [hvalue]
    exact if_pos ⟨rfl, hrange⟩

/-- **Keys that an array tells apart have different names.** -/
theorem LiteralKey.arrayKey_eq_of_name_eq {k l : LiteralKey} (hk : k.isExact = true)
    (hl : l.isExact = true) (h : k.name = l.name) : k.arrayKey = l.arrayKey := by
  have hname : ∀ k : LiteralKey, k.isExact = true →
      k.arrayKey = (LiteralKey.text k.name).arrayKey := by
    intro k hk
    cases k with
    | text s => rfl
    | number n =>
        simp only [arrayKey, name, integerKey?_toString (of_decide_eq_true hk)]
  rw [hname k hk, hname l hl, h]

namespace ArrayItem

variable {items : List ArrayItem}

/-- The names are those of the written keys and the first numbers. -/
theorem propertyNames_perm (items : List ArrayItem) (index : Nat) :
    (propertyNames index items).Perm
      ((writtenKeys items).map LiteralKey.name ++
        (List.range' index (countKeyless items)).map toString) := by
  induction items generalizing index with
  | nil => exact .nil
  | cons item rest ih =>
      obtain ⟨key?, value⟩ := item
      cases key? with
      | some key => exact (ih index).cons _
      | none =>
          have hcount : countKeyless (⟨none, value⟩ :: rest) = countKeyless rest + 1 :=
            List.countP_cons_of_pos rfl
          rw [hcount, List.range'_succ, List.map_cons]
          exact ((ih (index + 1)).cons _).trans List.perm_middle.symm

/-- The written keys are keys of the array. -/
theorem writtenKeys_sublist (items : List ArrayItem) (largest : Option Int) :
    List.Sublist ((writtenKeys items).map LiteralKey.arrayKey) (arrayKeys largest items) := by
  induction items generalizing largest with
  | nil => exact .slnil
  | cons item rest ih =>
      obtain ⟨key?, value⟩ := item
      cases key? with
      | some key => exact (ih _).cons_cons _
      | none => exact (ih _).cons _

/-- **The names differ just if no key is one of the numbers that are handed out.** -/
theorem nodup_propertyNames_iff (hexact : ∀ key ∈ writtenKeys items, key.isExact = true)
    (hkeys : (arrayKeys none items).Nodup) : (propertyNames 0 items).Nodup ↔
      ∀ key ∈ writtenKeys items, ∀ i < countKeyless items, key.name ≠ toString i := by
  have hwritten : ((writtenKeys items).map LiteralKey.name).Nodup := by
    have hdistinct := (hkeys.sublist (writtenKeys_sublist items none))
    rw [List.nodup_map_iff_inj_on (hdistinct.of_map _)]
    intro k hk l hl hname
    exact List.inj_on_of_nodup_map hdistinct hk hl
      (LiteralKey.arrayKey_eq_of_name_eq (hexact k hk) (hexact l hl) hname)
  have hnumbers : ((List.range' 0 (countKeyless items)).map toString).Nodup :=
    List.Nodup.map (fun _ _ => Text.toString_injective) List.nodup_range'
  rw [(propertyNames_perm items 0).nodup_iff, List.nodup_append]
  simp only [hwritten, hnumbers, true_and, List.mem_map, List.mem_range'_1]
  constructor
  · intro h key hkey i hi
    exact h _ ⟨key, hkey, rfl⟩ _ ⟨i, ⟨Nat.zero_le _, by omega⟩, rfl⟩
  · rintro h _ ⟨key, hkey, rfl⟩ _ ⟨i, ⟨-, hi⟩, rfl⟩
    exact h key hkey i (by omega)

/-! ### Properties -/

/-- The core counterpart of an element whose value comes to the node. -/
def coreItem (item : ArrayItem) (c : Core.Node) : Core.Node :=
  match item.key? with
  | some key => .entry key.coreNode c
  | none => c

/-- The properties that the elements become; those without a key are numbered from `index`. -/
def properties (index : Nat) : List ArrayItem → List JavaScript.Node → List JavaScript.Node
  | item :: items, j :: js =>
    match item.key? with
    | some key => .objectProperty key.property j false :: properties index items js
    | none => Lowering.numbered index j :: properties (index + 1) items js
  | _, _ => []

/-- A value comes to a construct that is no element with a key. -/
theorem isConstruct_of_isValue {value : Node} {c : Core.Node} (hvalue : value.isValue = true)
    (h : value.toCore = .ok c) : Lowering.isConstruct c = true ∧ Lowering.isEntry c = false := by
  have hne : value ≠ .absent := by
    rintro rfl
    cases hvalue
  obtain ⟨hconstruct, hkind⟩ := isConstruct_of_toCore hne h
  refine ⟨hconstruct, Bool.eq_false_iff.mpr fun hentry => ?_⟩
  have hname := hkind (by simpa [Lowering.isEntry] using hentry)
  cases value <;> simp [Node.isValue, hname] at hvalue

theorem itemsToCore_node {cs : List Core.Node}
    (h : List.Forall₂ (fun item c => item.value.toCore = .ok c) items cs) :
    itemsToCore (items.map node) = .ok (List.zipWith coreItem items cs) := by
  induction h with
  | nil =>
      rw [List.map_nil, itemsToCore]
      rfl
  | @cons item c items cs hc hrest ih =>
      obtain ⟨key?, value⟩ := item
      have hc : value.toCore = .ok c := hc
      rw [List.map_cons, List.zipWith_cons_cons]
      cases key? with
      | none =>
          rw [node, Option.map_none, Option.getD_none, itemsToCore, hc, ih]
          rfl
      | some key =>
          rw [node, Option.map_some, Option.getD_some, itemsToCore]
          · rw [hc, ih, key.toCore_node]
            rfl
          · exact key.node_ne_absent

theorem hasEntry_coreItem {cs : List Core.Node} (hall : ∀ item ∈ items, item.value.isValue = true)
    (h : List.Forall₂ (fun item c => item.value.toCore = .ok c) items cs) :
    Lowering.hasEntry (List.zipWith coreItem items cs) =
      .ok (items.any fun item => item.key?.isSome) := by
  induction h with
  | nil => rfl
  | @cons item c items cs hc hrest ih =>
      obtain ⟨hvalue, hvalues⟩ := List.forall_mem_cons.mp hall
      obtain ⟨key?, value⟩ := item
      rw [List.zipWith_cons_cons]
      cases key? with
      | some key => rfl
      | none =>
          obtain ⟨hconstruct, hentry⟩ := isConstruct_of_isValue hvalue hc
          rw [coreItem, Lowering.hasEntry_cons hconstruct, hentry, ih hvalues]
          rfl

theorem lowerItems_coreItem {cs : List Core.Node} {js : List JavaScript.Node}
    (hall : ∀ item ∈ items, item.value.isValue = true)
    (h : List.Forall₂ (fun item c => item.value.toCore = .ok c) items cs)
    (hlower : List.Forall₂ (fun c j => Lowering.lower c = .ok j) cs js) (index : Nat) :
    Lowering.lowerItems index (List.zipWith coreItem items cs) = .ok (properties index items js) := by
  induction h generalizing js index with
  | nil =>
      cases hlower
      rw [List.zipWith_nil_left, Lowering.lowerItems]
      rfl
  | @cons item c items cs hc hrest ih =>
      obtain ⟨j, js, hj, hjs, rfl⟩ := List.forall₂_cons_left_iff.mp hlower
      obtain ⟨hvalue, hvalues⟩ := List.forall_mem_cons.mp hall
      obtain ⟨key?, value⟩ := item
      rw [List.zipWith_cons_cons]
      cases key? with
      | some key =>
          have hentry : Lowering.lower (.entry key.coreNode c) =
              .ok (.objectProperty key.property j false) := by
            rw [Lowering.lower, key.lower_coreNode, hj]
            exact congrArg _ (congrArg _ key.isComputedKey_property)
          have hstep := @Lowering.lowerItems_entry key.coreNode c index
            (List.zipWith coreItem items cs) key.coreNode_ne_absent
          rw [hentry, ih hvalues hjs] at hstep
          exact hstep
      | none =>
          obtain ⟨hconstruct, hentry⟩ := isConstruct_of_isValue hvalue hc
          have hno : ∀ key value, c ≠ .entry key value := by
            rintro key value rfl
            cases hentry
          have hpresent : c ≠ .absent := by
            rintro rfl
            cases hconstruct
          rw [coreItem, Lowering.lowerItems_plain index _ hno hpresent, hentry, hj,
            ih hvalues hjs]
          rfl

/-- Values that are converted come to core nodes that are lowered. -/
theorem exists_core {js : List JavaScript.Node}
    (h : List.Forall₂ (fun item j => IsConverted item.value j) items js) :
    ∃ cs, List.Forall₂ (fun item c => item.value.toCore = .ok c) items cs ∧
      List.Forall₂ (fun c j => Lowering.lower c = .ok j) cs js := by
  induction h with
  | nil => exact ⟨[], .nil, .nil⟩
  | cons hj _ ih =>
      obtain ⟨c, hc, hj⟩ := hj
      obtain ⟨cs, hcs, hjs⟩ := ih
      exact ⟨c :: cs, .cons hc hcs, .cons hj hjs⟩

theorem propertyName?_property {key : LiteralKey} (h : key.isExact = true) (j : JavaScript.Node) :
    (JavaScript.Node.objectProperty key.property j false).propertyName? = some key.name := by
  cases key with
  | text s => rfl
  | number n =>
      have hn : n ≤ JavaScript.exactBound := of_decide_eq_true h
      exact if_pos ⟨by omega, by omega⟩

theorem propertyName?_numbered {index : Nat} (h : index ≤ JavaScript.exactBound)
    (j : JavaScript.Node) : (Lowering.numbered index j).propertyName? = some (toString index) :=
  if_pos ⟨by omega, by omega⟩

theorem map_propertyValue?_properties {js : List JavaScript.Node} (hlength : items.length = js.length)
    (index : Nat) :
    (properties index items js).map JavaScript.Node.propertyValue? = js.map some := by
  induction items generalizing js index with
  | nil => rw [List.length_eq_zero_iff.mp hlength.symm]; rfl
  | cons item items ih =>
      obtain ⟨j, js, rfl⟩ := List.exists_cons_of_length_eq_add_one hlength.symm
      have hrest := ih (Nat.succ.inj hlength)
      obtain ⟨key?, value⟩ := item
      cases key? with
      | some key => exact congrArg _ (hrest index)
      | none => exact congrArg _ (hrest (index + 1))

theorem map_propertyName?_properties {js : List JavaScript.Node} (hlength : items.length = js.length)
    (hexact : ∀ key ∈ writtenKeys items, key.isExact = true) (index : Nat)
    (hindex : index + items.length ≤ JavaScript.exactBound) :
    (properties index items js).map JavaScript.Node.propertyName? =
      (propertyNames index items).map some := by
  induction items generalizing js index with
  | nil => rw [List.length_eq_zero_iff.mp hlength.symm]; rfl
  | cons item items ih =>
      obtain ⟨j, js, rfl⟩ := List.exists_cons_of_length_eq_add_one hlength.symm
      rw [List.length_cons] at hindex
      obtain ⟨key?, value⟩ := item
      cases key? with
      | some key =>
          obtain ⟨hkey, hrest⟩ := List.forall_mem_cons.mp hexact
          exact congrArg₂ _ (propertyName?_property hkey j)
            (ih (Nat.succ.inj hlength) hrest index (by omega))
      | none =>
          exact congrArg₂ _ (propertyName?_numbered (by omega) j)
            (ih (Nat.succ.inj hlength) hexact (index + 1) (by omega))

/-- **An array with a key is converted to an object expression**, if its values can be. -/
theorem isConverted_array {js : List JavaScript.Node}
    (hkeyed : ∃ item ∈ items, item.key?.isSome = true)
    (hvalues : ∀ item ∈ items, item.value.isValue = true)
    (hjs : List.Forall₂ (fun item j => IsConverted item.value j) items js) :
    IsConverted (.array (items.map node)) (.objectExpression (properties 0 items js)) := by
  obtain ⟨cs, hcs, hlower⟩ := exists_core hjs
  refine ⟨.array (List.zipWith coreItem items cs), ?_, ?_⟩
  · rw [Node.toCore, itemsToCore_node hcs]
    rfl
  · have hentry : (items.any fun item => item.key?.isSome) = true := List.any_eq_true.mpr hkeyed
    rw [Lowering.lower, hasEntry_coreItem hvalues hcs, hentry]
    show (Lowering.lowerItems 0 _ >>= fun ps => pure (JavaScript.Node.objectExpression ps)) = _
    rw [lowerItems_coreItem hvalues hcs hlower 0]
    rfl

/-- **No element is lost unless it is given a number that is written as a key.**  If the values of an
array with a key can be converted, the array is converted to an object expression.  That has one
property for each element, in their order: its value is that of the element, and its name that of
the key, or the number of elements without a key before it.  If all elements have different keys in
the array, these names differ just if no written key is one of the numbers that are handed out. -/
theorem keepsElements (items : List ArrayItem) (js : List JavaScript.Node)
    (hkeyed : ∃ item ∈ items, item.key?.isSome = true)
    (hvalues : ∀ item ∈ items, item.value.isValue = true)
    (hjs : List.Forall₂ (fun item j => IsConverted item.value j) items js)
    (hexact : ∀ key ∈ writtenKeys items, key.isExact = true)
    (hlength : items.length ≤ JavaScript.exactBound) (hkeys : (arrayKeys none items).Nodup) :
    ∃ ps, IsConverted (.array (items.map node)) (.objectExpression ps) ∧
      ps.map JavaScript.Node.propertyValue? = js.map some ∧
      ps.map JavaScript.Node.propertyName? = (propertyNames 0 items).map some ∧
      ((ps.map JavaScript.Node.propertyName?).Nodup ↔
        ∀ key ∈ writtenKeys items, ∀ i < countKeyless items, key.name ≠ toString i) := by
  have hnames := map_propertyName?_properties hjs.length_eq hexact 0 (by omega)
  refine ⟨properties 0 items js, isConverted_array hkeyed hvalues hjs,
    map_propertyValue?_properties hjs.length_eq 0, hnames, ?_⟩
  rw [hnames, List.nodup_map_iff fun _ _ => Option.some.inj]
  exact nodup_propertyNames_iff hexact hkeys

theorem isConverted_number (n : Nat) :
    IsConverted (.number (.int n)) (.numericLiteral (.number (.int n))) :=
  ⟨.number (.number (.int n)), by rw [Node.toCore]; rfl, rfl⟩

/-- An element with a key of its own and one without a key. -/
def mixed : List ArrayItem :=
  [⟨some (.text "k"), .number (.int 1)⟩, ⟨none, .number (.int 2)⟩]

/-- An element with the key zero and one without a key. -/
def colliding : List ArrayItem :=
  [⟨some (.number 0), .number (.int 1)⟩, ⟨none, .number (.int 2)⟩]

/-- What the values of both are converted to. -/
def oneAndTwo : List JavaScript.Node :=
  [.numericLiteral (.number (.int 1)), .numericLiteral (.number (.int 2))]

/-- The names of `k` and of the first number differ. -/
theorem keepsElements_mixed : (arrayKeys none mixed).Nodup ∧ ∃ ps,
    IsConverted (.array (mixed.map node)) (.objectExpression ps) ∧
      ps.map JavaScript.Node.propertyValue? = oneAndTwo.map some ∧
      (ps.map JavaScript.Node.propertyName?).Nodup := by
  have hkeys : (arrayKeys none mixed).Nodup := by decide
  obtain ⟨ps, hps, hvalues, -, hnodup⟩ := keepsElements mixed oneAndTwo (by decide)
    (by decide) (.cons (isConverted_number 1) (.cons (isConverted_number 2) .nil)) (by decide)
    (by decide) hkeys
  exact ⟨hkeys, ps, hps, hvalues, hnodup.mpr (by decide)⟩

/-- **The number zero is handed out although it is written as a key.**  In the array the second
element has the key one. -/
theorem not_nodup_colliding : arrayKeys none colliding = [.integer 0, .integer 1] ∧ ∃ ps,
    IsConverted (.array (colliding.map node)) (.objectExpression ps) ∧
      ps.map JavaScript.Node.propertyName? = [some "0", some "0"] := by
  have hjs : List.Forall₂ (fun item j => IsConverted item.value j) colliding oneAndTwo :=
    .cons (isConverted_number 1) (.cons (isConverted_number 2) .nil)
  exact ⟨by decide, _, isConverted_array (by decide) (by decide) hjs, rfl⟩

end ArrayItem

end Php

end PhpMigration
