import DataClassGen.Files.Access
import DataClassGen.Files.Path

/-!
# File trees

A file tree as a value: the files and directories below a root, by the names that lead to them, and
a working directory. `FileTree.access` reads and writes it.

Writing makes the directories on the way one by one, so one that was made stays when a later one
cannot be. Only a path that can be followed at all makes any.
-/

namespace DataClassGen

/-- The names that lead from the root to a file or directory. -/
abbrev Location := List String

/-- What is at a location. -/
inductive FileEntry where
  | file (contents : Bytes)
  | directory
  deriving DecidableEq

/-- The files and directories below a root. -/
structure FileTree where
  entries : List (Location × FileEntry) := []
  /-- Where paths that do not start at the root start. -/
  workDir : Location := []

namespace FileTree

/-- What is at a location. The root is always there. -/
def lookup? (tree : FileTree) : Location → Option FileEntry
  | [] => some .directory
  | location => tree.entries.lookup location

/-- The location is a directory. -/
def isDirectory (tree : FileTree) (location : Location) : Bool :=
  tree.lookup? location == some .directory

/-- The tree with an entry in place of what was there. -/
def put (tree : FileTree) (location : Location) (entry : FileEntry) : FileTree :=
  { tree with entries := (location, entry) :: tree.entries.filter (·.1 != location) }

/-- What was put at a location is there. -/
theorem lookup?_put_self (tree : FileTree) {location : Location} (h : location ≠ [])
    (entry : FileEntry) : (tree.put location entry).lookup? location = some entry := by
  cases location with
  | nil => exact absurd rfl h
  | cons name names => simp [put, lookup?]

/-! ### Following paths -/

/-- Where a path starts. -/
def start (tree : FileTree) (path : String) : Location :=
  if Path.isRooted path then [] else tree.workDir

/-- Where a segment leads from a location. -/
def follow (location : Location) (segment : String) : Location :=
  if !Path.moves segment then location
  else if segment == Path.up then location.dropLast
  else location ++ [segment]

/-- The location at the end of a path; every segment starts in a directory. -/
def locate? (tree : FileTree) (location : Location) : List String → Option Location
  | [] => some location
  | segment :: rest =>
    if tree.isDirectory location then locate? tree (follow location segment) rest else none

/-- How many bytes a name can have. -/
def nameLimit : Nat := 255

/-- A file or directory can have the name, which stands in a path that can be followed. -/
def isName (segment : String) : Bool := segment.utf8ByteSize ≤ nameLimit

/-! ### Reading and writing -/

/-- The contents of the file that a path leads to. -/
def read? (tree : FileTree) (path : String) : Option Bytes :=
  if path.isEmpty || !Path.isUsable path then none
  else
    match (tree.locate? (tree.start path) (Path.segments path)).bind tree.lookup? with
    | some (.file contents) => some contents
    | _ => none

/-- The tree with the directories on the way made, and the location at the end of it, unless
there is a file on the way or no directory can have one of the names. -/
def makeDirectories (tree : FileTree) (location : Location) :
    List String → Option Location × FileTree
  | [] => (some location, tree)
  | segment :: rest =>
    let next := follow location segment
    match tree.lookup? next with
    | some .directory => tree.makeDirectories next rest
    | some (.file _) => (none, tree)
    | none =>
      if isName segment then (tree.put next .directory).makeDirectories next rest
      else (none, tree)

/-- Why a path is not written. -/
def notWritable : Failure := .io "the file cannot be written"

/-- A path can be followed, and it ends in a name that a file can have. -/
def isFilePath (path name : String) : Bool :=
  Path.isUsable path && (Path.segments path).getLast? == some name &&
    name != Path.here && name != Path.up && isName name

/-- The tree with a file in place of what a path leads to. The directory that the file is in is
made first, or nothing is, if the path to it cannot be followed; the root and the empty path are in
none. -/
def write (tree : FileTree) (path contents : String) : Except Failure Unit × FileTree :=
  match Path.parent? path with
  | none => (.error (.internal ("no parent directory for " ++ path)), tree)
  | some (parent, name) =>
    if Path.isUsable parent then
      match tree.makeDirectories (tree.start parent) (Path.steps parent) with
      | (none, tree) => (.error notWritable, tree)
      | (some directory, tree) =>
        let location := directory ++ [name]
        if isFilePath path name && !tree.isDirectory location then
          (.ok (), tree.put location (.file (Text.bytesOf contents)))
        else (.error notWritable, tree)
    else (.error notWritable, tree)

/-- Access to the files of a tree. -/
def access : FileAccess (StateM FileTree) where
  read path := do
    match (← getThe FileTree).read? path with
    | some contents => return contents
    | none => throw (.io "the file cannot be read")
  write path contents := ExceptT.mk fun tree => tree.write path contents

/-- The files below the working directory, by their paths from there. -/
def files (tree : FileTree) : List (String × Bytes) :=
  tree.entries.filterMap fun (location, entry) =>
    match entry, tree.workDir.isPrefixOf? location with
    | .file contents, some names => some (Text.joinWith "/" names, contents)
    | _, _ => none

end FileTree

end DataClassGen
