/-
Finding the files of a folder.

The files of a folder come before those of the folders in it, each in the order of the names.  A
folder whose name is excluded is passed over with all that is in it, and a link is never followed
into a folder, while one that leads to a file, or to nothing, counts as a file.
-/
import PhpMigration.Project.FileTree
import PhpMigration.Settings

namespace PhpMigration.Discovery

/-- What an entry of a folder gives: itself if it is a file, or the files below it. -/
structure Found where
  name : String
  isFolder : Bool
  files : List (List String)

/-- Files first, and everything in the order of the names. -/
def inOrder (found : List Found) : List (List String) :=
  let sorted := found.mergeSort fun a b => decide (a.name ≤ b.name)
  (sorted.filter fun f => !f.isFolder).flatMap Found.files ++
    (sorted.filter Found.isFolder).flatMap Found.files

mutual

/-- The files below an entry, as names from `path` on. -/
def filesBelow (excluded : List String) (leadsToFolder : List String → Bool) (path : List String) :
    Entry → List (List String)
  | .folder entries => inOrder (foundIn excluded leadsToFolder path entries)
  | _ => []

/-- What the entries of a folder give. -/
def foundIn (excluded : List String) (leadsToFolder : List String → Bool) (path : List String) :
    List (String × Entry) → List Found
  | [] => []
  | (name, .folder entries) :: rest =>
    let more := foundIn excluded leadsToFolder path rest
    if excluded.contains name then more
    else ⟨name, true, inOrder (foundIn excluded leadsToFolder (path ++ [name]) entries)⟩ :: more
  | (name, .file _) :: rest =>
    ⟨name, false, [path ++ [name]]⟩ :: foundIn excluded leadsToFolder path rest
  | (name, .link _) :: rest =>
    let more := foundIn excluded leadsToFolder path rest
    if leadsToFolder (path ++ [name]) then more else ⟨name, false, [path ++ [name]]⟩ :: more

end

/-- The files below a folder of a tree, as names from the folder on. -/
def files (excluded : List String) (folder : List String) (t : FileTree) : List (List String) :=
  match t.spot folder with
  | .found _ e _ => filesBelow excluded (fun path => t.isFolder (folder ++ path)) [] e
  | _ => []

/-- The file has one of the suffixes, in letters of any size. -/
def hasSuffix (suffixes : List String) (name : String) : Bool :=
  suffixes.contains (Text.lower (Path.suffix name))

/-- The source files below a folder of a tree, as names from the folder on. -/
def sources (s : Settings) (folder : List String) (t : FileTree) :
    Except SettingsFault (List (List String)) := do
  let suffixes ← s.suffixes
  return (files (← s.skipped) folder t).filter fun path => hasSuffix suffixes (path.getLastD "")

end PhpMigration.Discovery
