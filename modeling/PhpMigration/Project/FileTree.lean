/-
A tree of files.

A folder holds entries by name: files with their bytes, folders, and links, which lead to another
path from the top of the tree.  A path is walked name by name; two dots lead back, and a link is
replaced by the path it leads to, only so often that a circle of links comes to an end.  All
reading and writing goes through such a walk, so a link stands for what it leads to.  A name must
not be too long, and neither must a path; a path with a null character in it is no path at all.

A fault names the path as it was asked for, below the name that the whole tree goes by.
-/
import PhpMigration.Path
import PhpMigration.Table
import PhpMigration.Text.Cited
import PhpMigration.Text.Utf8
import PhpMigration.Text.Lines

namespace PhpMigration

/-- What is filed under a name. -/
inductive Entry where
  | file (content : ByteArray)
  | folder (entries : List (String × Entry))
  | link (target : List String)
  deriving Inhabited

/-- Why a path cannot be read or written. -/
inductive StorageProblem where
  | missing
  | exists
  | notFolder
  | isFolder
  | tooLong
  | looping
  /-- There is a null character in the path. -/
  | unnameable
  deriving DecidableEq, Repr, Inhabited

/-- The number and the wording of a problem. -/
def StorageProblem.message : StorageProblem → String
  | .missing => "[Errno 2] No such file or directory"
  | .exists => "[Errno 17] File exists"
  | .notFolder => "[Errno 20] Not a directory"
  | .isFolder => "[Errno 21] Is a directory"
  | .tooLong => "[Errno 36] File name too long"
  | .looping => "[Errno 40] Too many levels of symbolic links"
  | .unnameable => "embedded null byte"

/-- A problem with a path. -/
structure StorageFault where
  problem : StorageProblem
  path : String
  deriving DecidableEq, Repr, Inhabited

/-- The wording of a fault, which names the path if it is one. -/
def StorageFault.message (f : StorageFault) : String :=
  if f.problem = .unnameable then f.problem.message
  else f.problem.message ++ ": " ++ Text.cite f.path

namespace Entry

/-- A folder. -/
def isFolder : Entry → Bool
  | .folder _ => true
  | _ => false

/-- The entries of a folder. -/
def entries : Entry → Table Entry
  | .folder entries => entries
  | _ => []

/-- The entry at the end of a path, no link being followed. -/
def at? : Entry → List String → Option Entry
  | e, [] => some e
  | .folder entries, name :: rest => (Table.find? entries name).bind fun e => e.at? rest
  | _, _ :: _ => none

/-- The tree with an entry at the end of a path; folders on the way are made where they are
missing. -/
def put (new : Entry) : List String → Entry → Entry
  | [], _ => new
  | name :: rest, .folder entries =>
    .folder (Table.set name (put new rest ((Table.find? entries name).getD (.folder []))) entries)
  | _ :: _, e => e

mutual

/-- Everything below an entry, by its path from there; a folder comes before what is in it. -/
def contents : Entry → List (List String × Entry)
  | .folder entries => contentsOf entries
  | _ => []

/-- Everything that some entries of a folder hold, and the entries themselves. -/
def contentsOf : List (String × Entry) → List (List String × Entry)
  | [] => []
  | (name, e) :: rest =>
    ([name], e) :: (e.contents.map fun (path, e) => (name :: path, e)) ++ contentsOf rest

end

end Entry

/-- Where a path leads. -/
inductive Spot where
  /-- An entry, with its path free of links; so many links could still have been followed. -/
  | found (place : List String) (entry : Entry) (links : Nat)
  /-- Nothing, but the folder is there that would hold it. -/
  | free (place : List String)
  | problem (problem : StorageProblem)

/-- So many links are followed on one walk. -/
def maxLinks : Nat := 40

/-- The bytes of a name are no more than this. -/
def maxNameBytes : Nat := 255

/-- The bytes of a path are no more than this. -/
def maxPathBytes : Nat := 4095

/-- The walk along `todo` from the place `done`. -/
def Entry.walk (top : Entry) : (links : Nat) → (done todo : List String) → Spot
  | links, done, todo =>
    match top.at? done, todo with
    | none, _ => .problem .missing
    | some here, [] => .found done here links
    | some (.folder entries), name :: rest =>
      if name = ".." then
        if done.isEmpty then .problem .missing else walk top links done.dropLast rest
      else if maxNameBytes < name.utf8ByteSize then .problem .tooLong
      else match Table.find? entries name with
        | none => if rest.isEmpty then .free (done ++ [name]) else .problem .missing
        | some (.link target) =>
          match links with
          | 0 => .problem .looping
          | links + 1 => walk top links [] (target ++ rest)
        | some _ => walk top links (done ++ [name]) rest
    | some _, _ :: _ => .problem .notFolder
  termination_by links _ todo => (links, todo.length)

/-- A tree of files with the name that it goes by in messages. -/
structure FileTree where
  name : String
  top : Entry
  deriving Inhabited

namespace FileTree

/-- An empty tree. -/
def empty (name : String) : FileTree := ⟨name, .folder []⟩

/-- A path as messages show it. -/
def shown (t : FileTree) (path : List String) : String := Path.join (t.name :: path)

/-- A problem with a path of the tree. -/
def fault (t : FileTree) (problem : StorageProblem) (path : List String) : StorageFault :=
  ⟨problem, t.shown path⟩

/-- Where a path leads. -/
def spot (t : FileTree) (path : List String) : Spot :=
  if path.any fun name => name.toList.contains '\x00' then .problem .unnameable
  else if maxPathBytes < (t.shown path).utf8ByteSize then .problem .tooLong
  else t.top.walk maxLinks [] path

/-- The tree with an entry at a place. -/
def put (t : FileTree) (place : List String) (e : Entry) : FileTree :=
  { t with top := Entry.put e place t.top }

/-- What is at the end of a path, if there is anything; a name that is too long cannot be asked
for. -/
def entry? (t : FileTree) (path : List String) : Except StorageFault (Option Entry) :=
  match t.spot path with
  | .found _ e _ => pure (some e)
  | .problem .tooLong => throw (t.fault .tooLong path)
  | _ => pure none

/-- Whether the path leads to a folder. -/
def leadsToFolder (t : FileTree) (path : List String) : Except StorageFault Bool :=
  return (← t.entry? path).any Entry.isFolder

/-- Whether the path leads to a file. -/
def leadsToFile (t : FileTree) (path : List String) : Except StorageFault Bool :=
  return (← t.entry? path).any (! ·.isFolder)

/-- Whether the path leads to something. -/
def leadsToEntry (t : FileTree) (path : List String) : Except StorageFault Bool :=
  return (← t.entry? path).isSome

/-- The path leads to a folder. -/
def isFolder (t : FileTree) (path : List String) : Bool :=
  match t.spot path with
  | .found _ e _ => e.isFolder
  | _ => false

/-- The path leads to a file. -/
def isFile (t : FileTree) (path : List String) : Bool :=
  match t.spot path with
  | .found _ e _ => !e.isFolder
  | _ => false

/-- The folder before the last name of the path holds that name, whatever it leads to. -/
def isTaken (t : FileTree) (path : List String) : Bool :=
  match t.spot path.dropLast with
  | .found _ e _ => path.getLast?.any (Table.has e.entries)
  | _ => false

/-- The bytes of the file that a path leads to. -/
def read (t : FileTree) (path : List String) : Except StorageFault ByteArray :=
  match t.spot path with
  | .found _ (.file content) _ => pure content
  | .found .. => throw (t.fault .isFolder path)
  | .free _ => throw (t.fault .missing path)
  | .problem problem => throw (t.fault problem path)

/-- The tree with a file written, in a folder that is there. -/
def write (t : FileTree) (path : List String) (content : ByteArray) :
    Except StorageFault FileTree :=
  match t.spot path with
  | .found place (.file _) _ => pure (t.put place (.file content))
  | .found .. => throw (t.fault .isFolder path)
  | .free place => pure (t.put place (.file content))
  | .problem problem => throw (t.fault problem path)

/-- The tree with a folder made, in a folder that is there; it may be there already.  A link that
leads to no folder is in the way like a file. -/
def makeFolder (t : FileTree) (path : List String) : Except StorageFault FileTree :=
  match t.spot path with
  | .found _ e _ => if e.isFolder then pure t else throw (t.fault .exists path)
  | .problem .tooLong => throw (t.fault .tooLong path)
  | .free place =>
    if t.isTaken path then throw (t.fault .exists path) else pure (t.put place (.folder []))
  | .problem problem => throw (t.fault (if t.isTaken path then .exists else problem) path)

/-- The tree with a folder made, and all folders above it that are missing.  Those that could be
made stay, even if the folder itself cannot be made. -/
def makeFolders (t : FileTree) (path : List String) : Except StorageFault Unit × FileTree :=
  match t.makeFolder path with
  | .ok t => (.ok (), t)
  | .error fault =>
    if _h : fault.problem = .missing ∧ path ≠ [] then
      match makeFolders t path.dropLast with
      | (.error fault, t) => (.error fault, t)
      | (.ok (), t) =>
        match t.makeFolder path with
        | .ok t => (.ok (), t)
        | .error fault => (.error fault, t)
    else (.error fault, t)
  termination_by path.length
  decreasing_by
    have := List.length_pos_iff.mpr _h.2
    simp only [List.length_dropLast]
    omega

/-! ### Places

A place is a path from the root of the file system, without two dots and links on the way.  The tree
is below its own name; what lies outside it is not known, and there no name stands for a link. -/

/-- Where a path leads, whether anything is there or not. -/
inductive Place where
  | at (place : List String)
  /-- To a link that leads back to itself, from which the names that are left go on. -/
  | circle (place : List String)
  deriving DecidableEq, Repr

/-- The names from the root to the top of the tree. -/
def location (t : FileTree) : List String := Path.withoutDots [] (Path.parts t.name)

/-- The path from the top of the tree to a place in it. -/
def inside? (t : FileTree) (place : List String) : Option (List String) :=
  if t.location.isPrefixOf place then some (place.drop t.location.length) else none

/-- The link at a place. -/
def linkAt? (t : FileTree) (place : List String) : Option (List String) :=
  match (t.inside? place).bind t.top.at? with
  | some (.link target) => some target
  | _ => none

/-- The place that `todo` leads to from the place `done`.  Where nothing is, names are only counted.
The links in `pending` are being replaced by what they lead to, so that a link among them closes a
circle; `links` is the number of all others. -/
def placeFrom (t : FileTree) (links : Nat) (pending : List (List String)) (done : List String) :
    (todo : List String) → Place
  | [] => .at done
  | name :: rest =>
    if name = ".." then placeFrom t links pending done.dropLast rest
    else
      let next := done ++ [name]
      match t.linkAt? next, links with
      | some target, links + 1 =>
        if pending.contains next then .circle (next ++ rest)
        else match placeFrom t links (next :: pending) t.location target with
          | .at place => placeFrom t (links + 1) pending place rest
          | .circle place => .circle (place ++ rest)
      | some _, 0 => .circle (next ++ rest)
      | none, links => placeFrom t links pending next rest
  termination_by todo => (links, todo.length)

/-- The number of links in a tree. -/
def countLinks (top : Entry) : Nat :=
  (top.contents.filter fun (_, e) => match e with
    | .link _ => true
    | _ => false).length

/-- The place that a path from the root leads to. -/
def placeOf (t : FileTree) (path : List String) : Place :=
  placeFrom t (countLinks t.top) [] [] path

end FileTree

end PhpMigration
