/-!
# File trees

A file tree holds the files and directories of a file system. A path is followed name by name: an empty
name and `.` stay, `..` goes up but not above the root, and every name needs a directory to be looked up
in. A path that starts with a slash is followed from the root, and any other one from the working
directory.

Names and paths are texts, while those of a real file system may be bytes of any kind.
-/

namespace KeywordRules

/-- A file with its bytes, or a directory with its entries, each under a name that is a text. -/
inductive FileTree where
  | file (bytes : ByteArray)
  | directory (entries : List (String × FileTree))
  deriving Inhabited

namespace FileTree

/-- A directory without entries. -/
def empty : FileTree := .directory []

/-- The entry of a directory. -/
def child? (name : String) : FileTree → Option FileTree
  | .file _ => none
  | .directory entries => entries.lookup name

/-- The names of a path, which stand between its slashes. -/
def names (path : String) : List String :=
  (path.toList.splitOn '/').map String.ofList

/-- What a list of names leads to from a place, of which the directories that it lies in are given too,
the innermost first. -/
def follow (above : List FileTree) (here : FileTree) : List String → Option FileTree
  | [] => some here
  | name :: names =>
    match here with
    | .file _ => none
    | .directory _ =>
      if name = "" ∨ name = "." then follow above here names
      else if name = ".." then
        match above with
        | [] => follow [] here names
        | outer :: above => follow above outer names
      else
        match here.child? name with
        | some inner => follow (here :: above) inner names
        | none => none

/-- One step in a directory, whatever it lies in. -/
theorem follow_directory (above : List FileTree) (entries : List (String × FileTree)) (name : String)
    (names : List String) :
    follow above (directory entries) (name :: names) =
      if name = "" ∨ name = "." then follow above (directory entries) names
      else if name = ".." then
        match above with
        | [] => follow [] (directory entries) names
        | outer :: above => follow above outer names
      else
        match (directory entries).child? name with
        | some inner => follow (directory entries :: above) inner names
        | none => none := rfl

/-- The tree with a file or directory put at a place; missing directories on the way are made. A
directory without entries leaves the entries of a directory that is already there. -/
def put (node : FileTree) : List String → FileTree → FileTree
  | [], tree =>
    match node, tree with
    | .directory [], .directory _ => tree
    | _, _ => node
  | name :: names, tree =>
    let entries :=
      match tree with
      | .directory entries => entries
      | .file _ => []
    let inner := put node names ((entries.lookup name).getD empty)
    .directory ((name, inner) :: entries.filter fun entry => entry.1 != name)

/-- The place to which a name leads from a place, each as the names from the root to it. -/
def next (here : List String) (name : String) : List String :=
  if name = "" ∨ name = "." then here
  else if name = ".." then here.dropLast
  else here ++ [name]

/-- The places to which names lead one after another from a place. -/
def places (here : List String) : List String → List (List String)
  | [] => []
  | name :: names => next here name :: places (next here name) names

/-- The tree with a file or directory put at a path; every place on the way becomes a directory, also
one that the path leaves again. -/
def add (tree : FileTree) (path : String) (node : FileTree) : FileTree :=
  let passed := places [] (names path)
  put node (passed.getLast?.getD []) (passed.dropLast.foldl (fun tree place => put empty place tree) tree)

end FileTree

/-- The files that a process sees, as far as their names are texts: an entry whose name is no valid UTF-8
has no place here, and neither has a path with such a name in it. -/
structure FileSystem where
  /-- Everything from the root on. -/
  root : FileTree
  /-- The names that lead from the root to the working directory. -/
  working : List String

namespace FileSystem

/-- How many bytes a path can have. -/
def pathLimit : Nat := 4095

/-- Whether a path can be asked for at all. -/
def admits (path : String) : Bool :=
  path ≠ "" ∧ path.utf8ByteSize ≤ pathLimit ∧ '\x00' ∉ path.toList

/-- The names that a path stands for from the root on. -/
def route (system : FileSystem) (path : String) : List String :=
  if path.front = '/' then FileTree.names path else system.working ++ FileTree.names path

/-- What a path leads to. -/
def resolve? (system : FileSystem) (path : String) : Option FileTree :=
  if admits path then FileTree.follow [] system.root (system.route path) else none

end FileSystem

end KeywordRules
