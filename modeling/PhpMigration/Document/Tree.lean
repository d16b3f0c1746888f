/-
Documents that write trees down.

A node is an object, its children are members, and a list of children is a list; a text may stand
for the list of its characters.  Reading goes from the leaves to the root: when a node is made,
everything has been made of its members that can be made of them.
-/
import PhpMigration.Document.Value

namespace PhpMigration.Document

/-- A value, with the node and the list of nodes that have been made of it. -/
structure Part (α : Type) where
  value : Value
  node : α
  nodes : List α

/-- The members of an object, read. -/
abbrev Parts (α : Type) := Table (Part α)

namespace Parts

variable {α : Type}

/-- The value of a member, or the default. -/
def value (ps : Parts α) (name : String) (default : Value := .null) : Value :=
  ((Table.find? ps name).map Part.value).getD default

/-- The node that a member is. -/
def node [Inhabited α] (ps : Parts α) (name : String) : α :=
  ((Table.find? ps name).map Part.node).getD default

/-- The nodes that a member lists.  A member that is not there lists none, and `unlisted` says what
stands for one that cannot be gone through. -/
def nodes (ps : Parts α) (unlisted : Value → List α) (name : String) : List α :=
  match Table.find? ps name with
  | none => []
  | some part =>
    match part.value with
    | .list _ | .text _ => part.nodes
    | v => unlisted v

/-- The text of a member, or nothing. -/
def text (ps : Parts α) (name : String) : String := (ps.value name).text?.getD ""

end Parts

variable {α : Type}

mutual

/-- Read a value: `make` makes a node of an object, `other` of anything else. -/
def readPart (make : Parts α → α) (other : Value → List α → α) : Value → Part α
  | .list items =>
    let nodes := readItems make other items
    ⟨.list items, other (.list items) nodes, nodes⟩
  | .object members => ⟨.object members, make (readMembers make other members), []⟩
  | .text s => ⟨.text s, other (.text s) [], s.toList.map fun c => other (.text (.singleton c)) []⟩
  | v => ⟨v, other v [], []⟩

/-- Read the items of a list. -/
def readItems (make : Parts α → α) (other : Value → List α → α) : List Value → List α
  | [] => []
  | item :: rest => (readPart make other item).node :: readItems make other rest

/-- Read the members of an object. -/
def readMembers (make : Parts α → α) (other : Value → List α → α) :
    List (String × Value) → Parts α
  | [] => []
  | (name, value) :: rest => (name, readPart make other value) :: readMembers make other rest

end

end PhpMigration.Document
