/-
The outline of a folder: what is in it, and in the folders in it.

Folders come before files, each in the order of the names; a folder whose name is skipped is left
out.  Links are followed, but not more than so many on the whole way to an entry, so that an
outline of a circle of links comes to an end.
-/
import PhpMigration.Document.Value
import PhpMigration.Project.FileTree

namespace PhpMigration

/-- A node of an outline; its path is that of its folder and its own name behind a slash. -/
inductive OutlineNode where
  | file (name path : String)
  | folder (name path : String) (children : List OutlineNode)
  deriving Repr, Inhabited

namespace OutlineNode

/-- The name of a node. -/
def name : OutlineNode → String
  | .file name _ => name
  | .folder name _ _ => name

/-- The node is a file. -/
def isFile : OutlineNode → Bool
  | .file .. => true
  | .folder .. => false

/-- A folder comes before a file, and a name before a greater one. -/
def comesBefore (a b : OutlineNode) : Bool :=
  if a.isFile = b.isFile then decide (a.name ≤ b.name) else b.isFile

mutual

/-- A node as reports show it. -/
def toDocument : OutlineNode → Value
  | .file name path =>
    .object [("name", .text name), ("type", .text "file"), ("path", .text path)]
  | .folder name path children =>
    .object [("name", .text name), ("type", .text "folder"), ("path", .text path),
      ("children", .list (toDocuments children))]

/-- Nodes as reports show them. -/
def toDocuments : List OutlineNode → List Value
  | [] => []
  | node :: rest => node.toDocument :: toDocuments rest

end

end OutlineNode

namespace Outline

/-- The path of a name in a folder. -/
def pathIn (base name : String) : String := if base.isEmpty then name else base ++ "/" ++ name

mutual

/-- The nodes of the entries of a folder; on the way below it, so many links are still followed. -/
def nodesOf (top : Entry) (skipped : List String) (links : Nat) (base : String) :
    List (String × Entry) → List OutlineNode
  | [] => []
  | (name, e) :: rest =>
    nodeOf top skipped links base name e ++ nodesOf top skipped links base rest
  termination_by entries => (links, sizeOf entries)

/-- The node of an entry; none if it is a skipped folder. -/
def nodeOf (top : Entry) (skipped : List String) (links : Nat) (base name : String) :
    Entry → List OutlineNode
  | .file _ => [.file name (pathIn base name)]
  | .folder entries =>
    if skipped.contains name then []
    else
      let path := pathIn base name
      [.folder name path
        ((nodesOf top skipped links path entries).mergeSort OutlineNode.comesBefore)]
  | .link target =>
    match links with
    | 0 => [.file name (pathIn base name)]
    | links + 1 =>
      match top.walk links [] target with
      | .found _ (.folder entries) left =>
        if skipped.contains name then []
        else
          let path := pathIn base name
          [.folder name path
            ((nodesOf top skipped (min left links) path entries).mergeSort
              OutlineNode.comesBefore)]
      | _ => [.file name (pathIn base name)]
  termination_by e => (links, sizeOf e)

end

/-- The outline of a folder of a tree. -/
def ofFolder (skipped : List String) (folder : List String) (t : FileTree) : List OutlineNode :=
  match t.spot folder with
  | .found _ e links =>
    (nodesOf t.top skipped links "" e.entries).mergeSort OutlineNode.comesBefore
  | _ => []

end Outline

end PhpMigration
